/-
Entries of a style object under a patch. What a patch makes of the entries is a list of keys and texts (`newEntries`):
- `key_ne_of_removed`: no entry has a key that the patch removes.
- `holds_of_set`: a key that the patch sets has an entry, and every entry with this key holds the value.
- `filter_newEntries`: entries that the patch does not name keep their text and their order.
- `planStyle_writes`: the planned splice writes these entries, or takes the attribute out if there are none left.
-/
import Mathlib.Data.List.Basic
import TsxWorkbench.Edit.InlineStyle

namespace TsxWorkbench.Edit

open Text Syntax Analysis

variable {source : List Char} {p : StylePatch} {old : List Node} {key : String} {value : List Char}

/-! ## Entries -/

/-- an entry of a style object: its key, if the source shows it, and its text -/
structure Entry where
  key : Option String
  text : List Char

def Entry.ofNode (source : List Char) (n : Node) : Entry := ⟨entryKey? n, n.span.slice source⟩

/-- entries of a style, as they stand in the source -/
def StyleAttribute.entries : StyleAttribute → List Node
  | .object _ _ entries => entries
  | _ => []

/-- an entry under a patch, or nothing if the patch removes it -/
def Entry.patched? (source : List Char) (p : StylePatch) (n : Node) : Option Entry :=
  (patchedText? source p n).map fun text => ⟨entryKey? n, text⟩

/-- an entry that a patch adds -/
def Entry.ofSet (s : String × List Char) : Entry := ⟨some s.1, entryText s.1 s.2⟩

/-- entries of a style object under a patch -/
def newEntries (source : List Char) (p : StylePatch) (old : List Node) : List Entry :=
  old.filterMap (Entry.patched? source p) ++
    (p.sets.filter fun s => p.removes.contains s.1 || !old.any fun n => entryKey? n == some s.1).map Entry.ofSet

theorem newEntries_text (source : List Char) (p : StylePatch) (old : List Node) :
    (newEntries source p old).map Entry.text = patchedEntries source p old := by
  have htext : ∀ n, (Entry.patched? source p n).map Entry.text = patchedText? source p n := by
    intro n
    unfold Entry.patched?
    rw [Option.map_map]
    exact Option.map_id'
  unfold newEntries patchedEntries addedEntries
  rw [List.map_append, List.map_filterMap, List.map_map]
  simp only [htext]
  rfl

/-- an entry is an old one under the patch or one that the patch adds -/
theorem mem_newEntries {entry : Entry} (h : entry ∈ newEntries source p old) :
    (∃ n ∈ old, Entry.patched? source p n = some entry) ∨
      ∃ s ∈ p.sets, entry = .ofSet s := by
  rcases List.mem_append.1 h with hold | hadded
  · exact .inl (List.mem_filterMap.1 hold)
  · obtain ⟨s, hs, rfl⟩ := List.mem_map.1 hadded
    exact .inr ⟨s, (List.mem_filter.1 hs).1, rfl⟩

/-! ## One entry -/

theorem key_of_patched? {n : Node} {entry : Entry} (h : Entry.patched? source p n = some entry) :
    entry.key = entryKey? n := by
  obtain ⟨text, -, rfl⟩ := Option.map_eq_some_iff.1 h
  rfl

theorem patched?_of_removed {n : Node} (hkey : entryKey? n = some key) (hremoved : key ∈ p.removes) :
    Entry.patched? source p n = none := by
  unfold Entry.patched? patchedText?
  rw [hkey]
  dsimp only
  rw [if_pos (List.contains_iff_mem.2 hremoved)]
  rfl

theorem patched?_of_set {n : Node} (hkey : entryKey? n = some key) (hkept : key ∉ p.removes)
    (hset : p.sets.lookup key = some value) :
    Entry.patched? source p n = some ⟨some key, replaceValue source n key value⟩ := by
  unfold Entry.patched? patchedText?
  rw [hkey]
  dsimp only
  rw [if_neg fun h => hkept (List.contains_iff_mem.1 h), hset]
  rfl

/-- a key that a patch sets or removes -/
def StylePatch.names (p : StylePatch) (key : String) : Bool := p.removes.contains key || p.sets.any (·.1 == key)

theorem patched?_of_not_names {n : Node} (h : (entryKey? n).any p.names = false) :
    Entry.patched? source p n = some (.ofNode source n) := by
  unfold Entry.patched? patchedText?
  cases hkey : entryKey? n with
  | none => simp [Entry.ofNode, hkey]
  | some key =>
    rw [hkey, Option.any_some, StylePatch.names, Bool.or_eq_false_iff] at h
    have hlookup : p.sets.lookup key = none := by
      rw [List.lookup_eq_none_iff]
      intro s hs
      have hne := List.any_eq_false.1 h.2 s hs
      exact bne_iff_ne.2 fun heq => hne (beq_iff_eq.2 heq.symm)
    dsimp only
    rw [h.1, hlookup, ← hkey]
    rfl

/-! ## Keys of a patch -/

/-- **A removed key.** No entry has it, however often it occurred. -/
theorem key_ne_of_removed (hremoved : key ∈ p.removes) (hset : ∀ s ∈ p.sets, s.1 ≠ key) :
    ∀ entry ∈ newEntries source p old, entry.key ≠ some key := by
  intro entry hentry hkey
  rcases mem_newEntries hentry with ⟨n, -, hpatched⟩ | ⟨s, hs, rfl⟩
  · have hnode : entryKey? n = some key := (key_of_patched? hpatched).symm.trans hkey
    rw [patched?_of_removed hnode hremoved] at hpatched
    cases hpatched
  · exact hset s hs (Option.some.inj hkey)

/-- a text that gives a key a value: after the key and the separator that stood there, or after new ones -/
def Holds (source : List Char) (old : List Node) (key : String) (value text : List Char) : Prop :=
  text = entryText key value ∨ ∃ span name before, Node.keyValue span name before ∈ old ∧ staticKey? name = some key ∧
    text = sliceBytes span.lo before.span.lo source ++ value

theorem holds_replaceValue {n : Node} (hn : n ∈ old) (hkey : entryKey? n = some key) (value : List Char) :
    Holds source old key value (replaceValue source n key value) := by
  unfold replaceValue
  split
  · exact .inr ⟨_, _, _, hn, hkey, rfl⟩
  · exact .inl rfl

theorem lookup_of_unique (hset : (key, value) ∈ p.sets) (hunique : ∀ v, (key, v) ∈ p.sets → v = value) :
    p.sets.lookup key = some value := by
  cases hlookup : p.sets.lookup key with
  | none =>
    have hne := List.lookup_eq_none_iff.1 hlookup _ hset
    simp at hne
  | some v =>
    obtain ⟨before, after, hsets, -⟩ := List.lookup_eq_some_iff.1 hlookup
    rw [hunique v (hsets ▸ List.mem_append_right _ List.mem_cons_self)]

/-- **A set key.** There is an entry with it, and all entries with it hold the value. -/
theorem holds_of_set (hset : (key, value) ∈ p.sets) (hunique : ∀ v, (key, v) ∈ p.sets → v = value)
    (hkept : key ∉ p.removes) : (∃ entry ∈ newEntries source p old, entry.key = some key) ∧
      ∀ entry ∈ newEntries source p old, entry.key = some key → Holds source old key value entry.text := by
  have hpatched : ∀ n, entryKey? n = some key →
      Entry.patched? source p n = some ⟨some key, replaceValue source n key value⟩ :=
    fun n hn => patched?_of_set hn hkept (lookup_of_unique hset hunique)
  constructor
  · by_cases hany : old.any (fun n => entryKey? n == some key) = true
    · obtain ⟨n, hn, hkey⟩ := List.any_eq_true.1 hany
      have hmem := List.mem_filterMap.2 ⟨n, hn, hpatched n (eq_of_beq hkey)⟩
      exact ⟨_, List.mem_append_left _ hmem, rfl⟩
    · refine ⟨.ofSet (key, value), List.mem_append_right _ (List.mem_map.2 ⟨_, List.mem_filter.2 ⟨hset, ?_⟩, rfl⟩), rfl⟩
      simp [hany]
  · intro entry hentry hkey
    rcases mem_newEntries hentry with ⟨n, hn, heq⟩ | ⟨⟨k, v⟩, hs, rfl⟩
    · have hnode : entryKey? n = some key := (key_of_patched? heq).symm.trans hkey
      rw [hpatched n hnode] at heq
      cases heq
      exact holds_replaceValue hn hnode value
    · obtain rfl : k = key := Option.some.inj hkey
      rw [hunique v hs]
      exact .inl rfl

/-- **All other entries.** They keep their text and their order. -/
theorem filter_newEntries (source : List Char) (p : StylePatch) (old : List Node) :
    (newEntries source p old).filter (fun entry => !entry.key.any p.names) =
      (old.map (Entry.ofNode source)).filter fun entry => !entry.key.any p.names := by
  have hold : (old.filterMap (Entry.patched? source p)).filter (fun entry => !entry.key.any p.names) =
      (old.map (Entry.ofNode source)).filter fun entry => !entry.key.any p.names := by
    induction old with
    | nil => rfl
    | cons n rest ih =>
      by_cases hnamed : (entryKey? n).any p.names = true
      · -- whatever the patch makes of the entry, the key stays
        rw [List.map_cons, List.filter_cons_of_neg (by simp [Entry.ofNode, hnamed]), ← ih, List.filterMap_cons]
        cases hentry : Entry.patched? source p n with
        | none => rfl
        | some entry => exact List.filter_cons_of_neg (by simp [key_of_patched? hentry, hnamed])
      · rw [List.filterMap_cons, patched?_of_not_names (Bool.eq_false_iff.2 hnamed), List.map_cons]
        dsimp only
        rw [List.filter_cons, List.filter_cons, ih]
  have hadded : ∀ s ∈ p.sets, (Entry.ofSet s).key.any p.names = true := by
    intro s hs
    have hany : p.sets.any (·.1 == s.1) = true := List.any_eq_true.2 ⟨s, hs, beq_self_eq_true _⟩
    simp [Entry.ofSet, StylePatch.names, hany]
  unfold newEntries
  rw [List.filter_append, hold, List.append_right_eq_self, List.filter_eq_nil_iff]
  intro entry hentry
  obtain ⟨s, hs, rfl⟩ := List.mem_map.1 hentry
  simp [hadded s (List.mem_filter.1 hs).1]

/-! ## Splices -/

/-- splices that write entries as the style of an element: none if they are the old ones, a new attribute if there was
none, a new object in place of the old one, or nothing in place of the attribute if there are no entries -/
inductive WritesStyle (source : List Char) (e : Element) (indentUnit : List Char) (entries : List Entry) :
    Option Splice → Prop where
  | unchanged (h : entries = (StyleAttribute.of e).entries.map (Entry.ofNode source)) :
    WritesStyle source e indentUnit entries none
  | inserted (h : StyleAttribute.of e = .missing) (hentries : entries ≠ []) :
    WritesStyle source e indentUnit entries (some (.insertAt e.attributePlace (" style=\x7b\x7b ".toList ++
      List.intercalate ", ".toList (entries.map Entry.text) ++ " \x7d\x7d".toList)))
  | emptied {whole literal : Span} {old : List Node} (h : StyleAttribute.of e = .object whole literal old)
    (hentries : entries = []) : WritesStyle source e indentUnit entries (some ⟨attributeWithBlanks source whole, []⟩)
  | rewritten {whole literal : Span} {old : List Node} (h : StyleAttribute.of e = .object whole literal old)
    (hentries : entries ≠ []) : WritesStyle source e indentUnit entries
      (some ⟨literal, renderObject source literal old (entries.map Entry.text) indentUnit⟩)

theorem newEntries_of_not_changes (h : patchChanges source p old = false) :
    newEntries source p old = old.map (Entry.ofNode source) := by
  simp only [patchChanges, Bool.or_eq_false_iff, Bool.not_eq_false', List.any_eq_false, bne_iff_ne, ne_eq,
    Decidable.not_not, List.isEmpty_iff, addedEntries, List.map_eq_nil_iff] at h
  obtain ⟨hsame, hadded⟩ := h
  unfold newEntries
  rw [hadded, List.map_nil, List.append_nil, List.filterMap_eq_map_iff_forall_eq_some]
  intro n hn
  rw [Entry.patched?, hsame n hn]
  rfl

theorem patchChanges_of_isEmpty (h : p.isEmpty = true) : patchChanges source p old = false := by
  simp only [StylePatch.isEmpty, Bool.and_eq_true, List.isEmpty_iff] at h
  obtain ⟨hsets, hremoves⟩ := h
  have htext : ∀ n, patchedText? source p n = some (n.span.slice source) := by
    intro n
    unfold patchedText?
    cases entryKey? n <;> simp [hsets, hremoves]
  simp [patchChanges, htext, addedEntries, hsets]

/-- what is planned for an object: nothing, to take the attribute out, or to write the object with other entries -/
theorem planStyle_object {e : Element} {whole literal : Span} (h : StyleAttribute.of e = .object whole literal old)
    (p : StylePatch) (indentUnit : List Char) : planStyle source e p indentUnit =
      .ok (if patchChanges source p old = false then none
        else if patchedEntries source p old = [] then some ⟨attributeWithBlanks source whole, []⟩
        else some ⟨literal, renderObject source literal old (patchedEntries source p old) indentUnit⟩) := by
  unfold planStyle
  split
  · rename_i hempty
    rw [if_pos (patchChanges_of_isEmpty hempty)]
  · rw [h]
    dsimp only
    cases hchanges : patchChanges source p old with
    | false => rfl
    | true =>
      cases hentries : patchedEntries source p old with
      | nil => rfl
      | cons => rfl

/-- **The planned splice.** It writes the entries as the patch leaves them. -/
theorem planStyle_writes {e : Element} {indentUnit : List Char} {splice : Option Splice}
    (h : planStyle source e p indentUnit = .ok splice) :
    WritesStyle source e indentUnit (newEntries source p (StyleAttribute.of e).entries) splice := by
  cases hstyle : StyleAttribute.of e with
  | missing =>
    have hall : newEntries source p StyleAttribute.missing.entries = p.sets.map Entry.ofSet := by
      simp only [newEntries, StyleAttribute.entries, List.filterMap_nil, List.nil_append, List.any_nil, Bool.not_false,
        Bool.or_true, List.filter_true]
    have hunchanged (hsets : p.sets.isEmpty = true) :
        WritesStyle source e indentUnit (p.sets.map Entry.ofSet) none := by
      rw [List.isEmpty_iff.1 hsets]
      exact .unchanged (by rw [hstyle]; rfl)
    unfold planStyle at h
    rw [hstyle] at h
    rw [hall]
    split at h
    · rename_i hempty
      cases h
      exact hunchanged (Bool.and_eq_true_iff.1 hempty).1
    dsimp only at h
    split at h
    · cases h
      exact hunchanged ‹_›
    · rename_i hsets
      cases h
      have htext : (p.sets.map fun s => entryText s.1 s.2) = (p.sets.map Entry.ofSet).map Entry.text := by
        rw [List.map_map]
        rfl
      rw [htext]
      exact .inserted hstyle (by simpa using hsets)
  | dynamic =>
    unfold planStyle at h
    rw [hstyle] at h
    split at h
    · rename_i hempty
      cases h
      exact .unchanged (hstyle ▸ newEntries_of_not_changes (patchChanges_of_isEmpty hempty))
    · cases h
  | object whole literal old =>
    rw [planStyle_object hstyle, ← newEntries_text] at h
    rw [← Except.ok.inj h]
    split
    · exact .unchanged (by rw [hstyle]; exact newEntries_of_not_changes ‹_›)
    · split
      · exact .emptied hstyle (List.map_eq_nil_iff.1 ‹_›)
      · exact .rewritten hstyle (mt List.map_eq_nil_iff.2 ‹_›)

/-- a style that is understood can be patched -/
theorem exists_planStyle (source : List Char) (p : StylePatch) {e : Element} (h : StyleAttribute.of e ≠ .dynamic)
    (indentUnit : List Char) :
    ∃ splice, planStyle source e p indentUnit = .ok splice := by
  unfold planStyle
  split
  · exact ⟨_, rfl⟩
  · split
    · split
      · exact ⟨_, rfl⟩
      · exact ⟨_, rfl⟩
    · exact absurd ‹_› h
    · dsimp only
      split
      · exact ⟨_, rfl⟩
      · split
        · exact ⟨_, rfl⟩
        · exact ⟨_, rfl⟩

/-! ## A patch of one key -/

/-- text of an entry after a key has got a value -/
def textWith (source : List Char) (key : String) (value : List Char) (n : Node) : List Char :=
  if entryKey? n = some key then replaceValue source n key value else n.span.slice source

theorem patchedText?_one (source : List Char) (key : String) (value : List Char) (n : Node) :
    patchedText? source ⟨[(key, value)], []⟩ n = some (textWith source key value n) := by
  unfold patchedText? textWith
  cases hkey : entryKey? n with
  | none => rfl
  | some other =>
    by_cases hsame : other = key
    · simp [hsame]
    · have hother : (other == key) = false := beq_false_of_ne hsame
      simp [hsame, hother, List.lookup_cons]

theorem addedEntries_one (h : ∃ n ∈ old, entryKey? n = some key) : addedEntries ⟨[(key, value)], []⟩ old = [] := by
  simpa [addedEntries] using h

theorem patchedEntries_one (source value : List Char) (h : ∃ n ∈ old, entryKey? n = some key) :
    patchedEntries source ⟨[(key, value)], []⟩ old = old.map (textWith source key value) := by
  unfold patchedEntries
  rw [addedEntries_one h, List.append_nil, List.filterMap_eq_map_iff_forall_eq_some]
  exact fun n _ => patchedText?_one source key value n

theorem patchChanges_one (source value : List Char) (h : ∃ n ∈ old, entryKey? n = some key) :
    patchChanges source ⟨[(key, value)], []⟩ old = false ↔
      old.map (textWith source key value) = old.map fun n => n.span.slice source := by
  unfold patchChanges
  rw [addedEntries_one h, List.map_inj_left]
  simp [patchedText?_one]

/-- an object in which a key has got a value, as it is planned -/
theorem planStyle_one (hobject : StyleAttribute.of e = .object whole literal old)
    (h : ∃ n ∈ old, entryKey? n = some key) (source value indentUnit : List Char) :
    planStyle source e ⟨[(key, value)], []⟩ indentUnit =
      .ok (if old.map (textWith source key value) = old.map (fun n => n.span.slice source) then none
        else some ⟨literal, renderObject source literal old (old.map (textWith source key value)) indentUnit⟩) := by
  have hleft : old.map (textWith source key value) ≠ [] := by
    obtain ⟨n, hn, -⟩ := h
    simpa using List.ne_nil_of_mem hn
  rw [planStyle_object hobject, patchedEntries_one source value h, if_neg hleft]
  simp only [patchChanges_one source value h]

theorem holds_one (source : List Char) (key : String) (value : List Char) (old : List Node) :
    (∃ entry ∈ newEntries source ⟨[(key, value)], []⟩ old, entry.key = some key) ∧
      ∀ entry ∈ newEntries source ⟨[(key, value)], []⟩ old, entry.key = some key →
        Holds source old key value entry.text :=
  holds_of_set List.mem_cons_self (fun _ hv => congrArg Prod.snd (List.mem_singleton.1 hv)) List.not_mem_nil

end TsxWorkbench.Edit
