/-
Splices carried out one after the other are splices carried out at once.

- `simultaneous`: the new text in one pass over the old one. In front of each character stand the texts inserted there,
  the last one of the list first, and then the text of the replacement that starts there; a character in a replaced
  range is left out.
- `foldl_apply_eq`: splices in the order of work, from the back of the text, give just that text.
- `SameSplices`, `simultaneous_eq_of_same`: the order of the list matters only among insertions at one place.
- `applySplices_simultaneous`: both together, for any list of splices that lie apart.
- `simultaneous_window`, `suffix_rewritten`: what stands outside of a window around all splices is as it was, and a piece
  that none of them reaches into is still there.

Sorting by starts alone would not do: a replacement and an insertion may start at one byte, and the insertion has to be
carried out last, so that the range of the replacement is still where it was.
-/
import TsxWorkbench.Proofs.Text.Splice

namespace TsxWorkbench.Text

variable {cs : List Char} {splices rest : List Splice} {s : Splice} {lo hi n : Nat}

/-! ## One pass -/

def isInsertionAt (n : Nat) (s : Splice) : Bool := s.span.lo = n && s.span.hi = n

def isReplacementFrom (n : Nat) (s : Splice) : Bool := s.span.lo = n && n < s.span.hi

/-- texts inserted at a byte, the last one of the list first -/
def insertedAt (splices : List Splice) (n : Nat) : List Char :=
  (splices.filter (isInsertionAt n)).reverse.flatMap Splice.text

/-- text of the replacement that starts at a byte -/
def replacedFrom (splices : List Splice) (n : Nat) : List Char :=
  (splices.filter (isReplacementFrom n)).flatMap Splice.text

/-- whether a byte lies in a replaced range -/
def isReplaced (splices : List Splice) (n : Nat) : Bool := splices.any fun s => s.span.lo ≤ n && n < s.span.hi

/-- what is written in front of the character at a byte -/
def writtenAt (splices : List Splice) (n : Nat) : List Char := insertedAt splices n ++ replacedFrom splices n

/-- what becomes of a piece of text that starts at byte n -/
def rewritten (splices : List Splice) : Nat → List Char → List Char
  | _, [] => []
  | n, c :: cs =>
    writtenAt splices n ++ ((if isReplaced splices n then [] else [c]) ++ rewritten splices (n + c.utf8Size) cs)

/-- the text with all splices carried out at once -/
def simultaneous (splices : List Splice) (cs : List Char) : List Char :=
  rewritten splices 0 cs ++ writtenAt splices (byteLen cs)

theorem rewritten_append (splices : List Splice) (n : Nat) (as bs : List Char) :
    rewritten splices n (as ++ bs) = rewritten splices n as ++ rewritten splices (n + byteLen as) bs := by
  induction as generalizing n with
  | nil => rfl
  | cons c as ih => simp [rewritten, ih, Nat.add_assoc]

theorem rewritten_split (splices : List Splice) {mid : Nat} (hlo : Boundary cs lo) (hmid : Boundary cs mid)
    (hhi : Boundary cs hi) (hle : lo ≤ mid) (hge : mid ≤ hi) : rewritten splices lo (sliceBytes lo hi cs) =
      rewritten splices lo (sliceBytes lo mid cs) ++ rewritten splices mid (sliceBytes mid hi cs) := by
  rw [sliceBytes_split hlo hmid hhi hle hge, rewritten_append, add_byteLen_sliceBytes hlo hmid hle]

@[simp] theorem rewritten_nil (n : Nat) (cs : List Char) : rewritten [] n cs = cs := by
  induction cs generalizing n with
  | nil => rfl
  | cons c cs ih => simp [rewritten, ih, writtenAt, insertedAt, replacedFrom, isReplaced]

/-- a piece of text depends on what happens at its bytes only -/
theorem rewritten_congr {as bs : List Splice} (h : ∀ m, n ≤ m → m < n + byteLen cs →
    writtenAt as m = writtenAt bs m ∧ isReplaced as m = isReplaced bs m) : rewritten as n cs = rewritten bs n cs := by
  induction cs generalizing n with
  | nil => rfl
  | cons c cs ih =>
    have hsize := c.utf8Size_pos
    rw [byteLen_cons] at h
    obtain ⟨hwritten, hreplaced⟩ := h n (Nat.le_refl n) (by omega)
    rw [rewritten, rewritten, hwritten, hreplaced, ih fun m hlo hhi => h m (by omega) (by omega)]

/-- a piece of text inside a replaced range is left out -/
theorem rewritten_of_replaced (h : ∀ m, n ≤ m → m < n + byteLen cs →
    writtenAt splices m = [] ∧ isReplaced splices m = true) : rewritten splices n cs = [] := by
  induction cs generalizing n with
  | nil => rfl
  | cons c cs ih =>
    have hsize := c.utf8Size_pos
    rw [byteLen_cons] at h
    obtain ⟨hwritten, hreplaced⟩ := h n (Nat.le_refl n) (by omega)
    rw [rewritten, hwritten, hreplaced, if_pos rfl, ih fun m hlo hhi => h m (by omega) (by omega)]
    rfl

/-! ## Behind the splices -/

section Behind

variable (hends : ∀ s ∈ splices, s.span.hi ≤ lo)
include hends

theorem isReplaced_behind (hn : lo ≤ n) : isReplaced splices n = false := by
  refine List.any_eq_false.2 fun s hs => ?_
  have := hends s hs
  simp only [Bool.and_eq_true, decide_eq_true_eq]
  omega

theorem replacedFrom_behind (hn : lo ≤ n) : replacedFrom splices n = [] := by
  rw [replacedFrom, List.filter_eq_nil_iff.2, List.flatMap_nil]
  intro s hs
  have := hends s hs
  simp only [isReplacementFrom, Bool.and_eq_true, decide_eq_true_eq]
  omega

theorem insertedAt_behind (hn : lo < n) : insertedAt splices n = [] := by
  rw [insertedAt, List.filter_eq_nil_iff.2, List.reverse_nil, List.flatMap_nil]
  intro s hs
  have := hends s hs
  simp only [isInsertionAt, Bool.and_eq_true, decide_eq_true_eq]
  omega

/-- after the end of all splices only the insertions there are written -/
theorem rewritten_behind (cs : List Char) :
    rewritten splices lo cs ++ writtenAt splices (lo + byteLen cs) = insertedAt splices lo ++ cs := by
  have hstart : writtenAt splices lo = insertedAt splices lo := by
    rw [writtenAt, replacedFrom_behind hends (Nat.le_refl _), List.append_nil]
  have hempty (m : Nat) (hm : lo < m) : writtenAt splices m = [] := by
    rw [writtenAt, insertedAt_behind hends hm, replacedFrom_behind hends hm.le, List.append_nil]
  cases cs with
  | nil => rw [rewritten, List.nil_append, List.append_nil, byteLen_nil, Nat.add_zero, hstart]
  | cons c cs =>
    have hsize := c.utf8Size_pos
    have hrest : rewritten splices (lo + c.utf8Size) cs = cs := by
      have hsame : rewritten splices (lo + c.utf8Size) cs = rewritten [] (lo + c.utf8Size) cs :=
        rewritten_congr fun m hm _ => ⟨hempty m (by omega), isReplaced_behind hends (by omega)⟩
      rw [hsame, rewritten_nil]
    rw [rewritten, hstart, isReplaced_behind hends (Nat.le_refl _), hrest, byteLen_cons, hempty _ (by omega)]
    simp

end Behind

/-! ## One more splice -/

theorem insertedAt_cons (s : Splice) (rest : List Splice) (n : Nat) :
    insertedAt (s :: rest) n = insertedAt rest n ++ if isInsertionAt n s then s.text else [] := by
  rw [insertedAt, insertedAt, List.filter_cons]
  split_ifs <;> simp

theorem replacedFrom_cons (s : Splice) (rest : List Splice) (n : Nat) :
    replacedFrom (s :: rest) n = (if isReplacementFrom n s then s.text else []) ++ replacedFrom rest n := by
  rw [replacedFrom, replacedFrom, List.filter_cons]
  split_ifs <;> simp

theorem isInsertionAt_eq_false (h : s.span.lo < s.span.hi ∨ n < s.span.lo) : isInsertionAt n s = false := by
  simp only [isInsertionAt, Bool.and_eq_false_iff, decide_eq_false_iff_not]
  omega

theorem isReplacementFrom_eq_false (h : s.span.lo ≠ n) : isReplacementFrom n s = false := by
  rw [isReplacementFrom, decide_eq_false h, Bool.false_and]

/-- a splice does nothing in front of it -/
theorem rewritten_cons_before {pre : List Char} (hpre : n + byteLen pre ≤ s.span.lo) :
    rewritten (s :: rest) n pre = rewritten rest n pre := by
  refine rewritten_congr fun m _ hm => ?_
  have hlt : m < s.span.lo := hm.trans_le hpre
  constructor
  · rw [writtenAt, insertedAt_cons, replacedFrom_cons, isInsertionAt_eq_false (.inr hlt),
      isReplacementFrom_eq_false hlt.ne', writtenAt]
    simp
  · rw [isReplaced, List.any_cons, decide_eq_false (Nat.not_le.2 hlt), Bool.false_and, Bool.false_or, isReplaced]

/-- nothing happens in front of all splices -/
theorem rewritten_before {pre : List Char} (hstarts : ∀ s ∈ splices, n + byteLen pre ≤ s.span.lo) :
    rewritten splices n pre = pre := by
  induction splices with
  | nil => exact rewritten_nil n pre
  | cons s rest ih =>
    obtain ⟨hs, hrest⟩ := List.forall_mem_cons.1 hstarts
    rw [rewritten_cons_before hs, ih hrest]

/-- a piece of text that no splice reaches into is still there, with the insertions in front of it -/
theorem suffix_rewritten (hapart : ∀ s ∈ splices, s.span.hi ≤ n ∨ n + byteLen cs ≤ s.span.lo) :
    cs <:+ rewritten splices n cs := by
  cases cs with
  | nil => exact List.nil_suffix
  | cons c cs =>
    have hsize := c.utf8Size_pos
    rw [byteLen_cons] at hapart
    have hkept (m : Nat) (hlo : n ≤ m) (hhi : m < n + (c.utf8Size + byteLen cs)) : isReplaced splices m = false := by
      refine List.any_eq_false.2 fun s hs => ?_
      have := hapart s hs
      simp only [Bool.and_eq_true, decide_eq_true_eq]
      omega
    have hnone (m : Nat) (hlo : n < m) (hhi : m < n + (c.utf8Size + byteLen cs)) : writtenAt splices m = [] := by
      have hinsertion (s) (hs : s ∈ splices) : ¬isInsertionAt m s = true := by
        have := hapart s hs
        simp only [isInsertionAt, Bool.and_eq_true, decide_eq_true_eq]
        omega
      have hreplacement (s) (hs : s ∈ splices) : ¬isReplacementFrom m s = true := by
        have := hapart s hs
        simp only [isReplacementFrom, Bool.and_eq_true, decide_eq_true_eq]
        omega
      rw [writtenAt, insertedAt, replacedFrom, List.filter_eq_nil_iff.2 hinsertion,
        List.filter_eq_nil_iff.2 hreplacement]
      rfl
    have hrest : rewritten splices (n + c.utf8Size) cs = cs := by
      have hsame : rewritten splices (n + c.utf8Size) cs = rewritten [] (n + c.utf8Size) cs :=
        rewritten_congr fun m hlo hhi => ⟨hnone m (by omega) (by omega), hkept m (by omega) (by omega)⟩
      rw [hsame, rewritten_nil]
    rw [rewritten, hkept n (Nat.le_refl n) (by omega), hrest]
    exact List.suffix_append _ _

section Last

variable (hends : ∀ b ∈ rest, b.span.hi ≤ s.span.lo)
include hends

/-- an insertion behind all other splices comes after the insertions at the same place -/
theorem rewritten_insertion (h : s.span.hi = s.span.lo) (cs : List Char) :
    rewritten (s :: rest) s.span.lo cs ++ writtenAt (s :: rest) (s.span.lo + byteLen cs) =
      insertedAt rest s.span.lo ++ (s.text ++ cs) := by
  have hinsertion : isInsertionAt s.span.lo s = true := by simp [isInsertionAt, h]
  rw [rewritten_behind (List.forall_mem_cons.2 ⟨h.le, hends⟩), insertedAt_cons, if_pos hinsertion, List.append_assoc]

/-- a replacement behind all other splices comes after the insertions at its start, and takes its range away -/
theorem rewritten_replacement {old : List Char} (hne : old ≠ []) (hold : s.span.lo + byteLen old = s.span.hi) :
    rewritten (s :: rest) s.span.lo old = insertedAt rest s.span.lo ++ s.text := by
  obtain ⟨c, old, rfl⟩ := List.exists_cons_of_ne_nil hne
  have hsize := c.utf8Size_pos
  rw [byteLen_cons] at hold
  have hinsertion (m : Nat) : isInsertionAt m s = false := isInsertionAt_eq_false (.inl (by omega))
  have hreplaced (m : Nat) (hlo : s.span.lo ≤ m) (hhi : m < s.span.hi) : isReplaced (s :: rest) m = true := by
    rw [isReplaced, List.any_cons, decide_eq_true hlo, decide_eq_true hhi, Bool.and_self, Bool.true_or]
  have hstart : writtenAt (s :: rest) s.span.lo = insertedAt rest s.span.lo ++ s.text := by
    have hlt : s.span.lo < s.span.hi := by omega
    have hreplacement : isReplacementFrom s.span.lo s = true := by simp [isReplacementFrom, hlt]
    rw [writtenAt, insertedAt_cons, replacedFrom_cons, hinsertion, if_pos hreplacement,
      replacedFrom_behind hends (Nat.le_refl _)]
    simp
  have hinside : rewritten (s :: rest) (s.span.lo + c.utf8Size) old = [] := by
    refine rewritten_of_replaced fun m hlo hhi => ⟨?_, hreplaced m (by omega) (by omega)⟩
    rw [writtenAt, insertedAt_cons, replacedFrom_cons, hinsertion, isReplacementFrom_eq_false (by omega),
      insertedAt_behind hends (by omega), replacedFrom_behind hends (by omega)]
    rfl
  rw [rewritten, hstart, hreplaced _ (Nat.le_refl _) (by omega), if_pos rfl, hinside]
  simp

/-- the last splice of a text and what follows it: the insertions of the others at its start, its own text, and the rest
as it was -/
theorem rewritten_last {old : List Char} (hold : s.span.lo + byteLen old = s.span.hi) (post : List Char) :
    rewritten (s :: rest) s.span.lo (old ++ post) ++ writtenAt (s :: rest) (s.span.lo + byteLen (old ++ post)) =
      insertedAt rest s.span.lo ++ (s.text ++ post) := by
  rcases eq_or_ne old [] with rfl | hne
  · exact rewritten_insertion hends hold.symm post
  have hpos : 0 < byteLen old := Nat.pos_of_ne_zero fun h => hne (byteLen_eq_zero h)
  have hall : ∀ b ∈ s :: rest, b.span.hi ≤ s.span.hi :=
    List.forall_mem_cons.2 ⟨Nat.le_refl _, fun b hb => (hends b hb).trans (by omega)⟩
  have hnone : insertedAt (s :: rest) s.span.hi = [] := by
    rw [insertedAt_cons, isInsertionAt_eq_false (.inl (by omega)), insertedAt_behind hends (by omega)]
    rfl
  calc rewritten (s :: rest) s.span.lo (old ++ post) ++ writtenAt (s :: rest) (s.span.lo + byteLen (old ++ post))
    _ = rewritten (s :: rest) s.span.lo old ++ (rewritten (s :: rest) s.span.hi post ++
          writtenAt (s :: rest) (s.span.hi + byteLen post)) := by
      rw [rewritten_append, byteLen_append, ← Nat.add_assoc, hold, List.append_assoc]
    _ = insertedAt rest s.span.lo ++ (s.text ++ post) := by
      rw [rewritten_behind hall, hnone, List.nil_append, rewritten_replacement hends hne hold, List.append_assoc]

end Last

/-- splices in a window of a text leave what stands before it and after it as it was -/
theorem simultaneous_window {pre mid post : List Char}
    (hfits : ∀ s ∈ splices, byteLen pre ≤ s.span.lo ∧ s.span.hi ≤ byteLen (pre ++ mid)) :
    simultaneous splices (pre ++ (mid ++ post)) =
      pre ++ (rewritten splices (byteLen pre) mid ++ insertedAt splices (byteLen (pre ++ mid))) ++ post := by
  have hpre : rewritten splices 0 pre = pre := rewritten_before fun s hs => by
    rw [Nat.zero_add]
    exact (hfits s hs).1
  have hends (s) (hs : s ∈ splices) : s.span.hi ≤ byteLen (pre ++ mid) := (hfits s hs).2
  calc simultaneous splices (pre ++ (mid ++ post))
    _ = rewritten splices 0 pre ++ (rewritten splices (byteLen pre) mid ++
          (rewritten splices (byteLen (pre ++ mid)) post ++
            writtenAt splices (byteLen (pre ++ mid) + byteLen post))) := by
      rw [simultaneous, rewritten_append, rewritten_append, Nat.zero_add, ← byteLen_append, ← byteLen_append,
        List.append_assoc, List.append_assoc, List.append_assoc]
    _ = pre ++ (rewritten splices (byteLen pre) mid ++ insertedAt splices (byteLen (pre ++ mid))) ++ post := by
      rw [hpre, rewritten_behind hends]
      simp only [List.append_assoc]

/-! ## One after the other -/

/-- splices that are carried out from the back give the text of one pass -/
theorem foldl_apply_eq (hfits : ∀ s ∈ splices, SpanFits cs 0 hi s.span)
    (hsorted : splices.Pairwise fun a b => b.span.hi ≤ a.span.lo) :
    splices.foldl (fun text s => s.apply text) cs = simultaneous splices cs := by
  induction splices generalizing cs hi with
  | nil => simp [simultaneous, writtenAt, insertedAt, replacedFrom]
  | cons s rest ih =>
    obtain ⟨hends, hrest⟩ := List.pairwise_cons.1 hsorted
    have hfit := hfits s List.mem_cons_self
    have hbefore (b : Splice) (hb : b ∈ rest) : SpanFits (s.apply cs) 0 s.span.lo b.span :=
      Splice.fits_apply hfit (hfits b (List.mem_cons_of_mem _ hb)) (hends b hb)
    rw [List.foldl_cons, ih hbefore hrest]
    obtain ⟨pre, old, post, rfl, hpre, hold⟩ := hfit.split
    rw [byteLen_append, hpre] at hold
    calc simultaneous rest (s.apply (pre ++ (old ++ post)))
      _ = simultaneous rest (pre ++ (s.text ++ post)) := by
        rw [Splice.apply_append hpre (by rw [byteLen_append, hpre, hold])]
      _ = rewritten rest 0 pre ++ (insertedAt rest s.span.lo ++ (s.text ++ post)) := by
        rw [simultaneous, rewritten_append, byteLen_append, Nat.zero_add, hpre, List.append_assoc,
          rewritten_behind hends]
      _ = rewritten (s :: rest) 0 pre ++ (rewritten (s :: rest) s.span.lo (old ++ post) ++
            writtenAt (s :: rest) (s.span.lo + byteLen (old ++ post))) := by
        rw [rewritten_last hends hold, rewritten_cons_before (by omega)]
      _ = simultaneous (s :: rest) (pre ++ (old ++ post)) := by
        rw [simultaneous, rewritten_append _ _ pre, byteLen_append pre, Nat.zero_add, hpre, List.append_assoc]

/-! ## Order of the list -/

/-- lists of the same splices in which the insertions at one place come in the same order -/
structure SameSplices (as bs : List Splice) : Prop where
  perm : as.Perm bs
  insertions : ∀ n, as.filter (isInsertionAt n) = bs.filter (isInsertionAt n)

theorem SameSplices.refl (splices : List Splice) : SameSplices splices splices := ⟨.refl _, fun _ => rfl⟩

/-- no two splices that lie apart replace text from one byte on -/
theorem length_filter_isReplacementFrom (hapart : splices.Pairwise Splice.Apart) (n : Nat) :
    (splices.filter (isReplacementFrom n)).length ≤ 1 := by
  have hfiltered := hapart.filter (isReplacementFrom n)
  have hmem (s) (hs : s ∈ splices.filter (isReplacementFrom n)) : s.span.lo = n ∧ n < s.span.hi := by
    simpa [isReplacementFrom] using (List.mem_filter.1 hs).2
  rcases hlist : splices.filter (isReplacementFrom n) with _ | ⟨a, _ | ⟨b, rest⟩⟩
  · exact Nat.zero_le _
  · exact Nat.le_refl _
  · rw [hlist] at hfiltered hmem
    have hab := (List.pairwise_cons.1 hfiltered).1 b List.mem_cons_self
    have ha := hmem a List.mem_cons_self
    have hb := hmem b (List.mem_cons_of_mem _ List.mem_cons_self)
    rcases hab with h | h <;> omega

theorem simultaneous_eq_of_same {as bs : List Splice} (h : SameSplices as bs) (hapart : bs.Pairwise Splice.Apart)
    (cs : List Char) : simultaneous as cs = simultaneous bs cs := by
  have hreplacement (n : Nat) : as.filter (isReplacementFrom n) = bs.filter (isReplacementFrom n) := by
    have hperm := h.perm.filter (isReplacementFrom n)
    rcases Nat.le_one_iff_eq_zero_or_eq_one.1 (length_filter_isReplacementFrom hapart n) with hnone | hone
    · rw [List.length_eq_zero_iff.1 hnone] at hperm ⊢
      exact hperm.eq_nil
    · obtain ⟨b, hb⟩ := List.length_eq_one_iff.1 hone
      rw [hb] at hperm ⊢
      exact List.perm_singleton.1 hperm
  have hwritten (n : Nat) : writtenAt as n = writtenAt bs n := by
    rw [writtenAt, writtenAt, insertedAt, insertedAt, replacedFrom, replacedFrom, h.insertions, hreplacement]
  rw [simultaneous, simultaneous, hwritten, rewritten_congr fun n _ _ => ⟨hwritten n, h.perm.any_eq⟩]

/-- the order of work keeps the order of insertions at one place -/
theorem sameSplices_mergeSort (splices : List Splice) : SameSplices (splices.mergeSort Splice.later) splices := by
  have hperm := splices.mergeSort_perm Splice.later
  refine ⟨hperm, fun n => ?_⟩
  have hpairwise : (splices.filter (isInsertionAt n)).Pairwise fun a b => Splice.later a b := by
    refine List.pairwise_of_forall_mem_list fun a ha b hb => ?_
    have hspan (s) (hs : s ∈ splices.filter (isInsertionAt n)) : s.span.lo = n ∧ s.span.hi = n := by
      simpa [isInsertionAt] using (List.mem_filter.1 hs).2
    simp [Splice.later, hspan a ha, hspan b hb]
  have hsublist := (List.sublist_mergeSort Splice.later_trans Splice.later_total hpairwise
    List.filter_sublist).filter (isInsertionAt n)
  rw [List.filter_filter, funext fun s => Bool.and_self (isInsertionAt n s)] at hsublist
  exact (hsublist.eq_of_length (hperm.filter _).length_eq.symm).symm

/-- splices that lie apart give the text of one pass, in any order that keeps that of insertions at one place -/
theorem applySplices_eq_simultaneous {others : List Splice} (hsame : SameSplices others splices)
    (hfits : ∀ s ∈ splices, SpanFits cs 0 (byteLen cs) s.span) (hapart : splices.Pairwise Splice.Apart) :
    applySplices cs others = simultaneous splices cs := by
  have hothers : others.Pairwise Splice.Apart := hsame.perm.symm.pairwise hapart fun h => h.symm
  have hfitsOthers (s : Splice) (hs : s ∈ others) : SpanFits cs 0 (byteLen cs) s.span :=
    hfits s (hsame.perm.mem_iff.1 hs)
  have hsorted := pairwise_mergeSort_later (fun s hs => (hfitsOthers s hs).le) hothers
  calc applySplices cs others
    _ = simultaneous (others.mergeSort Splice.later) cs :=
      foldl_apply_eq (fun s hs => hfitsOthers s (List.mem_mergeSort.1 hs)) hsorted
    _ = simultaneous others cs := simultaneous_eq_of_same (sameSplices_mergeSort others) hothers cs
    _ = simultaneous splices cs := simultaneous_eq_of_same hsame hapart cs

/-- **All at once.** Splices between characters of a text that lie apart give the text of one pass over it, whatever
their order, except that of insertions at one place. -/
theorem applySplices_simultaneous (hfits : ∀ s ∈ splices, SpanFits cs 0 (byteLen cs) s.span)
    (hapart : splices.Pairwise Splice.Apart) : applySplices cs splices = simultaneous splices cs ∧
      ∀ others, SameSplices others splices → applySplices cs others = applySplices cs splices := by
  have hself : applySplices cs splices = simultaneous splices cs :=
    applySplices_eq_simultaneous (.refl _) hfits hapart
  exact ⟨hself, fun others hsame => (applySplices_eq_simultaneous hsame hfits hapart).trans hself.symm⟩

/-- two insertions and a replacement that start at one byte, and an insertion at the end of the replacement -/
def touchingSplices : List Splice := [.insertAt 2 ['x'], ⟨⟨2, 4⟩, ['-']⟩, .insertAt 2 ['y'], .insertAt 4 ['z']]

theorem applySplices_simultaneous_touching :
    (∀ s ∈ touchingSplices, SpanFits "abcdé".toList 0 (byteLen "abcdé".toList) s.span) ∧
      touchingSplices.Pairwise Splice.Apart ∧ applySplices "abcdé".toList touchingSplices = "abyx-zé".toList := by
  have htwo : Boundary "abcdé".toList 2 := ⟨"ab".toList, "cdé".toList, rfl, rfl⟩
  have hfour : Boundary "abcdé".toList 4 := ⟨"abcd".toList, "é".toList, rfl, rfl⟩
  have hfits : ∀ s ∈ touchingSplices, SpanFits "abcdé".toList 0 (byteLen "abcdé".toList) s.span := by
    simp only [touchingSplices, List.forall_mem_cons, List.not_mem_nil, false_implies, implies_true, and_true]
    exact ⟨⟨by decide, by decide, by decide, htwo, htwo⟩, ⟨by decide, by decide, by decide, htwo, hfour⟩,
      ⟨by decide, by decide, by decide, htwo, htwo⟩, ⟨by decide, by decide, by decide, hfour, hfour⟩⟩
  have hapart : touchingSplices.Pairwise Splice.Apart := by simp [touchingSplices, Splice.insertAt, Splice.Apart]
  exact ⟨hfits, hapart, (applySplices_simultaneous hfits hapart).1.trans (by decide)⟩

end TsxWorkbench.Text
