-- Edits one at a time, and in any order. Applying edits in one pass is the same
-- as replacing one range after another from the last to the first, since what
-- stands before a range keeps its place. The order in which edits are given
-- counts for insertions at one offset only, and never for a refusal.
import Uplift.Proofs.Edit.Frame

namespace Uplift.Edit

open Text (width)

/-! ## One edit at a time -/

/-- The text with one range replaced. There is no answer where the edit does not fit. -/
def replace? (e : Edit) (t : Text) : Option Text :=
  if e.start ≤ e.stop then do
    let (front, rest) ← t.cut? e.start
    let (_, back) ← rest.cut? (e.stop - e.start)
    some (front ++ e.replacement ++ back)
  else none

/-- The text with one range after another replaced, from the last edit to the first. -/
def replaceEach? (source : Text) (edits : List Edit) : Option Text :=
  edits.foldrM replace? source

theorem replaceEach?_cons (source : Text) (e : Edit) (es : List Edit) :
    replaceEach? source (e :: es) = (replaceEach? source es).bind (replace? e) := by
  unfold replaceEach?
  rw [List.foldrM_cons]
  rfl

theorem replace?_eq_some {e : Edit} {front gone back : Text} (hstart : e.start = width front)
    (hstop : e.stop = width (front ++ gone)) :
    replace? e (front ++ gone ++ back) = some (front ++ e.replacement ++ back) := by
  rw [Text.width_append] at hstop
  have hgone : e.stop - e.start = width gone := by omega
  unfold replace?
  rw [if_pos (by omega), hgone, hstart, List.append_assoc, Text.cut?_append]
  simp [Text.cut?_append]

/-- What the edits behind an edit do leaves its range where it was, so that it can be replaced
next. -/
theorem InOrder.replaceEach?_eq {front rest : Text} {es : List Edit}
    (h : InOrder (front ++ rest) (width front) es) :
    replaceEach? (front ++ rest) es = some (front ++ splice rest (width front) es) := by
  induction es generalizing front rest with
  | nil => rfl
  | cons e es ih =>
    obtain ⟨kept, gone, tail, rfl, hstart, hstop, hsplice⟩ := h.splice_cons
    have hlater := h.tail_of_stop hstop
    have hbehind := ih hlater
    rw [← hstop] at hbehind
    have hnext : replace? e (front ++ kept ++ gone ++ splice tail e.stop es) =
        some (front ++ kept ++ e.replacement ++ splice tail e.stop es) :=
      replace?_eq_some hstart hstop
    rw [replaceEach?_cons, hsplice]
    simp only [List.append_assoc] at hbehind hnext ⊢
    rw [hbehind, Option.bind_some, hnext]

/-! ## The order of edits -/

/-- The edits from left to right, where those with one range stand as they were given. -/
structure StableOrder (edits ordered : List Edit) : Prop where
  perm : ordered.Perm edits
  sorted : ordered.Pairwise fun a b => before a b = true
  stable : ∀ r, ordered.filter (·.range == r) = edits.filter (·.range == r)

/-- The edit replaces nothing, and inserts its text at byte `n`. -/
def isInsertionAt (n : Nat) (e : Edit) : Bool := e.range == (n, n)

theorem range_eq_of_before {a b : Edit} (hab : before a b = true) (hba : before b a = true) :
    a.range = b.range := by
  rw [before_iff] at hab hba
  unfold range
  rw [Prod.mk.injEq]
  omega

theorem before_of_range_eq {a b : Edit} (h : a.range = b.range) : before a b = true := by
  unfold range at h
  rw [Prod.mk.injEq] at h
  rw [before_iff]
  omega

theorem ordered_stable (edits : List Edit) : StableOrder edits (edits.mergeSort before) := by
  refine ⟨List.mergeSort_perm edits before, ordered_pairwise edits, ?_⟩
  intro r
  -- Edits with one range are in order as they are given, and sorting leaves them so.
  have hsub : (edits.filter (·.range == r)).Sublist
      ((edits.mergeSort before).filter (·.range == r)) := by
    have hpair : (edits.filter (·.range == r)).Pairwise fun a b => before a b = true := by
      rw [List.pairwise_iff_forall_sublist]
      intro a b hab
      have ha : a ∈ edits.filter (·.range == r) := hab.subset (by simp)
      have hb : b ∈ edits.filter (·.range == r) := hab.subset (by simp)
      have ha' := (List.mem_filter.1 ha).2
      have hb' := (List.mem_filter.1 hb).2
      rw [beq_iff_eq] at ha' hb'
      exact before_of_range_eq (ha'.trans hb'.symm)
    have hall := (List.sublist_mergeSort before_trans before_total hpair
      List.filter_sublist).filter (·.range == r)
    rwa [List.filter_filter, show (fun e : Edit => e.range == r && e.range == r) =
      (·.range == r) by simp] at hall
  have hlen := ((List.mergeSort_perm edits before).filter (·.range == r)).length_eq
  exact (hsub.eq_of_length hlen.symm).symm

/-- The first edit of a list in order comes before every edit of it. -/
theorem before_of_mem {a e : Edit} {l : List Edit}
    (h : (a :: l).Pairwise fun a b => before a b = true) (he : e ∈ a :: l) :
    before a e = true := by
  rcases List.mem_cons.1 he with rfl | he
  · exact before_of_range_eq rfl
  · exact (List.pairwise_cons.1 h).1 e he

/-- Lists in order that agree on the edits of every range are equal. -/
theorem eq_of_stable {l m : List Edit} (hl : l.Pairwise fun a b => before a b = true)
    (hm : m.Pairwise fun a b => before a b = true)
    (h : ∀ r, l.filter (·.range == r) = m.filter (·.range == r)) : l = m := by
  have hmem : ∀ e, e ∈ l ↔ e ∈ m := by
    intro e
    have := congrArg (e ∈ ·) (h e.range)
    simpa [List.mem_filter] using this
  induction l generalizing m with
  | nil =>
    cases m with
    | nil => rfl
    | cons b m => exact absurd ((hmem b).2 (by simp)) (by simp)
  | cons a l ih =>
    cases m with
    | nil => exact absurd ((hmem a).1 (by simp)) (by simp)
    | cons b m =>
      have hab : a.range = b.range := by
        apply range_eq_of_before
        · exact before_of_mem hl ((hmem b).2 (by simp))
        · exact before_of_mem hm ((hmem a).1 (by simp))
      have hheads := h a.range
      rw [List.filter_cons_of_pos (by simp), List.filter_cons_of_pos (by simp [hab])] at hheads
      obtain ⟨rfl, hrest⟩ := List.cons.inj hheads
      have htails : ∀ r, l.filter (·.range == r) = m.filter (·.range == r) := by
        intro r
        by_cases hr : a.range = r
        · subst hr
          exact hrest
        · have := h r
          rwa [List.filter_cons_of_neg (by simp [hr]),
            List.filter_cons_of_neg (by simp [hr])] at this
      rw [ih (List.pairwise_cons.1 hl).2 (List.pairwise_cons.1 hm).2 htails]
      intro e
      have := congrArg (e ∈ ·) (htails e.range)
      simpa [List.mem_filter] using this

theorem StableOrder.eq_ordered {edits ordered : List Edit} (h : StableOrder edits ordered) :
    ordered = edits.mergeSort before := by
  have hsort := ordered_stable edits
  exact eq_of_stable h.sorted hsort.sorted fun r => (h.stable r).trans (hsort.stable r).symm

/-! ## Edits given in another order -/

/-- Of edits that are apart, only insertions can have a range in common. -/
theorem filter_range_perm {edits edits' : List Edit} {r : Nat × Nat} (hperm : edits'.Perm edits)
    (hap : edits.Pairwise Apart) (hr : r.1 < r.2) :
    edits.filter (·.range == r) = edits'.filter (·.range == r) := by
  have hnever : (edits.filter (·.range == r)).Pairwise fun _ _ => False := by
    refine (hap.sublist List.filter_sublist).imp_of_mem ?_
    intro a b ha hb hab
    have ha' := (List.mem_filter.1 ha).2
    have hb' := (List.mem_filter.1 hb).2
    rw [beq_iff_eq] at ha' hb'
    subst ha'
    unfold range at hb' hr
    rw [Prod.mk.injEq] at hb'
    unfold Apart at hab
    omega
  have hfilter := hperm.filter (·.range == r)
  generalize edits.filter (·.range == r) = same at hnever hfilter
  rcases same with _ | ⟨a, _ | ⟨b, same⟩⟩
  · exact hfilter.eq_nil.symm
  · exact (List.perm_singleton.1 hfilter).symm
  · exact ((List.pairwise_cons.1 hnever).1 b (by simp)).elim

/-- Edits that are apart stand in one stable order, whatever order they are given in, as long as
the insertions at one offset keep theirs. -/
theorem stableOrder_of_perm {edits edits' ordered : List Edit} (hperm : edits'.Perm edits)
    (hins : ∀ n, edits'.filter (isInsertionAt n) = edits.filter (isInsertionAt n))
    (hle : ∀ e ∈ edits, e.start ≤ e.stop) (hap : edits.Pairwise Apart)
    (h : StableOrder edits ordered) : StableOrder edits' ordered := by
  refine ⟨h.perm.trans hperm.symm, h.sorted, ?_⟩
  intro r
  rw [h.stable r]
  rcases Nat.lt_trichotomy r.1 r.2 with hr | hr | hr
  · exact filter_range_perm hperm hap hr
  · obtain ⟨n, m⟩ := r
    obtain rfl : n = m := hr
    exact (hins n).symm
  · have hnone : edits.filter (·.range == r) = [] := by
      rw [List.filter_eq_nil_iff]
      intro e he hrange
      have := hle e he
      rw [beq_iff_eq] at hrange
      subst hrange
      unfold range at hr
      omega
    have hfilter := hperm.filter (·.range == r)
    rw [hnone] at hfilter ⊢
    exact hfilter.eq_nil.symm

/-! ## Refusals -/

/-- Why edits in order are refused. -/
def refusal? (source : Text) (ordered : List Edit) : Option ApplyError :=
  match ordered.find? (!·.fits source) with
  | some e => some (.outOfBounds e.start e.stop (width source))
  | none => (firstOverlap? ordered).map fun (a, b) => .overlappingEdits a.stop b.start

theorem applyAll_eq_error_iff {source : Text} {edits : List Edit} {err : ApplyError} :
    applyAll source edits = .error err ↔ refusal? source (edits.mergeSort before) = some err := by
  unfold applyAll refusal?
  dsimp only
  cases (edits.mergeSort before).find? (!·.fits source) with
  | some e => simp
  | none => cases firstOverlap? (edits.mergeSort before) <;> simp

/-- The deletion of what an edit replaces. -/
def cleared (e : Edit) : Edit := .delete e.start e.stop

theorem firstOverlap?_cleared (l : List Edit) :
    firstOverlap? (l.map cleared) = (firstOverlap? l).map (Prod.map cleared cleared) := by
  fun_induction firstOverlap? l with
  | case1 a b rest hlt => exact if_pos hlt
  | case2 a b rest hge ih => exact (if_neg hge).trans ih
  | case3 l hl =>
    rcases l with _ | ⟨a, _ | ⟨b, l⟩⟩
    · rfl
    · rfl
    · exact absurd rfl (hl a b l)

/-- A refusal looks at ranges only. -/
theorem refusal?_cleared (source : Text) (l : List Edit) :
    refusal? source (l.map cleared) = refusal? source l := by
  unfold refusal?
  rw [List.find?_map, firstOverlap?_cleared]
  have hfits : (fun e : Edit => !e.fits source) ∘ cleared = fun e => !e.fits source := rfl
  rw [hfits]
  cases l.find? (!·.fits source) with
  | some e => rfl
  | none => cases firstOverlap? l <;> rfl

/-- The ranges of edits in order do not depend on how the edits are given. -/
theorem ordered_cleared {edits edits' : List Edit} (h : edits'.Perm edits) :
    (edits'.mergeSort before).map cleared = (edits.mergeSort before).map cleared := by
  have hsorted : ∀ l : List Edit,
      ((l.mergeSort before).map cleared).Pairwise fun a b => before a b = true := by
    intro l
    rw [List.pairwise_map]
    exact ordered_pairwise l
  refine List.Perm.eq_of_pairwise ?_ (hsorted edits') (hsorted edits) ?_
  · intro a b ha hb hab hba
    obtain ⟨x, _, rfl⟩ := List.mem_map.1 ha
    obtain ⟨y, _, rfl⟩ := List.mem_map.1 hb
    have hrange := range_eq_of_before hab hba
    unfold range at hrange
    rw [Prod.mk.injEq] at hrange
    unfold cleared
    exact congrArg₂ delete hrange.1 hrange.2
  · apply List.Perm.map
    exact ((List.mergeSort_perm edits' before).trans h).trans (List.mergeSort_perm edits before).symm

/-- Edits are refused for the same reason whatever order they are given in. -/
theorem applyAll_error_perm {source : Text} {edits edits' : List Edit} {err : ApplyError}
    (h : edits'.Perm edits) (herr : applyAll source edits = .error err) :
    applyAll source edits' = .error err := by
  rw [applyAll_eq_error_iff, ← refusal?_cleared] at herr ⊢
  rwa [ordered_cleared h]

/-! ## The law -/

/-- Edits that are applied fit the source and are apart. -/
theorem apart_of_applied {source text : Text} {edits : List Edit}
    (h : applyAll source edits = .ok text) :
    (∀ e ∈ edits, e.start ≤ e.stop) ∧ edits.Pairwise Apart := by
  obtain ⟨hord, _⟩ := applyAll_eq_ok h
  have hfits : ∀ e ∈ edits, e.fits source = true := fun e he =>
    hord.fits e (List.mem_mergeSort.2 he)
  refine ⟨fun e he => (fits_iff.1 (hfits e he)).1, ?_⟩
  by_contra hap
  obtain ⟨_, _, herr⟩ := applyAll_overlap_of_not_apart hfits hap
  rw [h] at herr
  cases herr

/-- Only the edits in order count. -/
theorem applyAll_congr {source text : Text} {edits edits' : List Edit}
    (h : edits'.mergeSort before = edits.mergeSort before)
    (htext : applyAll source edits = .ok text) : applyAll source edits' = .ok text := by
  unfold applyAll at *
  rwa [h]

/-- Edits that are applied in one pass can be replaced one at a time from the last to the first,
in the one order that goes from left to right and leaves edits of one range as they were given.
Given in another order, edits have the same result, as long as the insertions at one offset keep
their order; and edits that are refused are refused for the same reason in every order. -/
theorem edits_apply_one_at_a_time_and_in_any_order (source : Text) (edits : List Edit) :
    (∃! ordered, StableOrder edits ordered) ∧
    (∀ text ordered, applyAll source edits = .ok text → StableOrder edits ordered →
      replaceEach? source ordered = some text) ∧
    (∀ edits', edits'.Perm edits →
      (∀ n, edits'.filter (isInsertionAt n) = edits.filter (isInsertionAt n)) →
      applyAll source edits' = applyAll source edits) ∧
    (∀ edits' err, edits'.Perm edits → applyAll source edits = .error err →
      applyAll source edits' = .error err) := by
  refine ⟨?_, ?_, ?_, fun edits' err hperm => applyAll_error_perm hperm⟩
  · exact ⟨_, ordered_stable edits, fun ordered h => h.eq_ordered⟩
  · intro text ordered htext hordered
    obtain ⟨hord, rfl⟩ := applyAll_eq_ok htext
    rw [hordered.eq_ordered]
    exact @InOrder.replaceEach?_eq [] _ _ hord
  · intro edits' hperm hins
    cases happlied : applyAll source edits with
    | error err => exact applyAll_error_perm hperm happlied
    | ok text =>
      obtain ⟨hle, hap⟩ := apart_of_applied happlied
      have hsame := (stableOrder_of_perm hperm hins hle hap (ordered_stable edits)).eq_ordered
      exact applyAll_congr hsame.symm happlied

/-- The order of two insertions at one offset does count. -/
example : (applyAll ['x'] [insert 0 ['a'], insert 0 ['b']]).toOption = some ['a', 'b', 'x'] ∧
    (applyAll ['x'] [insert 0 ['b'], insert 0 ['a']]).toOption = some ['b', 'a', 'x'] := by
  cbv

end Uplift.Edit
