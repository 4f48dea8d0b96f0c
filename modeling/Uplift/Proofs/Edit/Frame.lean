-- The frame of an edit. Applying edits writes each replacement at one place of
-- the new text, and all that stands elsewhere in the new text is what stood
-- outside the edits in the source: every character once, and in order.
import Mathlib.Data.List.Forall2
import Uplift.Proofs.Edit.Conflicts
import Uplift.Proofs.Text.Remains

namespace Uplift.Edit

open Text (width slice? remains isCovered)

/-- The bytes of the source that the edit replaces. -/
def range (e : Edit) : Nat × Nat := (e.start, e.stop)

/-- Where the replacements of ordered edits stand in the new text, when the source is read up
to byte `pos` and `out` bytes are written. -/
def landings (pos out : Nat) : List Edit → List (Nat × Nat)
  | [] => []
  | e :: es =>
    let first := out + (e.start - pos)
    (first, first + width e.replacement) :: landings e.stop (first + width e.replacement) es

theorem le_of_mem_landings {pos out : Nat} {es : List Edit} {r : Nat × Nat}
    (h : r ∈ landings pos out es) : out ≤ r.1 := by
  induction es generalizing pos out with
  | nil => simp [landings] at h
  | cons e es ih =>
    rcases List.mem_cons.1 h with rfl | h
    · simp
    · have := ih h
      omega

/-! ## Edits from left to right -/

/-- The edits lie in order behind byte `pos` of the source. -/
structure InOrder (source : Text) (pos : Nat) (es : List Edit) : Prop where
  fits : ∀ e ∈ es, e.fits source = true
  ahead : ∀ e ∈ es, pos ≤ e.start
  ordered : es.Pairwise fun a b => a.stop ≤ b.start

/-- Edits that are applied lie in order, and are applied from left to right. -/
theorem applyAll_eq_ok {source text : Text} {edits : List Edit}
    (h : applyAll source edits = .ok text) :
    InOrder source 0 (edits.mergeSort before) ∧
      text = splice source 0 (edits.mergeSort before) := by
  unfold applyAll at h
  dsimp only at h
  split at h
  · cases h
  · rename_i hfit
    split at h
    · cases h
    · rename_i hover
      have hfits : ∀ e ∈ edits.mergeSort before, e.fits source = true := by
        intro e he
        simpa using List.find?_eq_none.1 hfit e he
      refine ⟨⟨hfits, fun _ _ => Nat.zero_le _, ?_⟩, ?_⟩
      · exact (firstOverlap?_eq_none_iff fun e he => (fits_iff.1 (hfits e he)).1).1 hover
      · injection h with h
        exact h.symm

/-- What the first edit does: it keeps the source up to its start, writes its replacement, and
leaves the source behind its stop to the other edits. -/
theorem InOrder.splice_cons {front rest : Text} {e : Edit} {es : List Edit}
    (h : InOrder (front ++ rest) (width front) (e :: es)) :
    ∃ kept gone tail, rest = kept ++ gone ++ tail ∧ e.start = width (front ++ kept) ∧
      e.stop = width (front ++ kept ++ gone) ∧
      splice rest (width front) (e :: es) = kept ++ e.replacement ++ splice tail e.stop es := by
  obtain ⟨hle, hstart, hstop⟩ := fits_iff.1 (h.fits e (by simp))
  have hahead := h.ahead e (by simp)
  -- The cut at the start lies in `rest`, and the cut at the stop behind it.
  obtain ⟨u, v, huv, hu⟩ := Text.isBoundary_iff.1 hstart
  obtain ⟨x, y, hxy, hx⟩ := Text.isBoundary_iff.1 hstop
  obtain ⟨kept, rfl, hrest⟩ := Text.append_of_width_le huv (by omega)
  obtain ⟨gone, rfl, hv⟩ := Text.append_of_width_le (huv.symm.trans hxy) (by omega)
  refine ⟨kept, gone, y, by rw [hrest, hv, List.append_assoc], hu.symm, hx.symm, ?_⟩
  have hkept : e.start - width front = width kept := by
    rw [← hu, Text.width_append, Nat.add_sub_cancel_left]
  have hgone : e.stop - e.start = width gone := by
    rw [← hx, ← hu, Text.width_append (front ++ kept), Nat.add_sub_cancel_left]
  rw [splice, hrest, hkept, Text.cut?_append]
  simp only
  rw [hv, hgone, Text.cut?_append]

theorem InOrder.tail {source : Text} {pos : Nat} {e : Edit} {es : List Edit}
    (h : InOrder source pos (e :: es)) : InOrder source e.stop es :=
  ⟨fun f hf => h.fits f (List.mem_cons_of_mem _ hf), (List.pairwise_cons.1 h.ordered).1,
    (List.pairwise_cons.1 h.ordered).2⟩

theorem InOrder.tail_of_stop {front kept gone tail : Text} {pos : Nat} {e : Edit} {es : List Edit}
    (h : InOrder (front ++ (kept ++ gone ++ tail)) pos (e :: es))
    (hstop : e.stop = width (front ++ kept ++ gone)) :
    InOrder (front ++ kept ++ gone ++ tail) (width (front ++ kept ++ gone)) es := by
  have := h.tail
  rwa [hstop, ← List.append_assoc, ← List.append_assoc] at this

/-! ## What is written and what is kept -/

/-- Each replacement stands where it lands. -/
theorem InOrder.written {front rest : Text} {es : List Edit}
    (h : InOrder (front ++ rest) (width front) es) (done : Text) :
    List.Forall₂ (fun e r => slice? (done ++ splice rest (width front) es) r.1 r.2 =
      some e.replacement) es (landings (width front) (width done) es) := by
  induction es generalizing front rest done with
  | nil => exact .nil
  | cons e es ih =>
    obtain ⟨kept, gone, tail, rfl, hstart, hstop, hsplice⟩ := h.splice_cons
    have hlater := h.tail_of_stop hstop
    have hfirst : width done + (e.start - width front) = width (done ++ kept) := by
      rw [hstart, Text.width_append, Text.width_append, Nat.add_sub_cancel_left]
    rw [hsplice]
    unfold landings
    refine .cons ?_ ?_
    · refine Text.slice?_eq_some_iff.2 ⟨done ++ kept, splice tail e.stop es, ?_, ?_, rfl⟩
      · simp only [List.append_assoc]
      · exact hfirst.symm
    · have hrest := ih hlater (done ++ kept ++ e.replacement)
      simp only [hfirst, hstop, ← Text.width_append, ← List.append_assoc] at hrest ⊢
      exact hrest

/-- Outside of the replacements, the new text is the source outside of the edits. -/
theorem InOrder.kept {front rest : Text} {es : List Edit}
    (h : InOrder (front ++ rest) (width front) es) (out : Nat) :
    remains (isCovered (landings (width front) out es)) out (splice rest (width front) es) =
      remains (isCovered (es.map range)) (width front) rest := by
  induction es generalizing front rest out with
  | nil =>
    unfold splice
    rw [Text.remains_eq_self (by simp [landings, isCovered]),
      Text.remains_eq_self (by simp [isCovered])]
  | cons e es ih =>
    obtain ⟨kept, gone, tail, rfl, hstart, hstop, hsplice⟩ := h.splice_cons
    have hlater := h.tail_of_stop hstop
    have hlast : width front + width kept + width gone = e.stop := by
      rw [hstop, Text.width_append, Text.width_append]
    have hrange : e.range = (width front + width kept, width front + width kept + width gone) := by
      rw [hlast, ← Text.width_append, ← hstart]
      rfl
    have hfirst : out + (e.start - width front) = out + width kept := by
      rw [hstart, Text.width_append, Nat.add_sub_cancel_left]
    have hbehind : ∀ r ∈ es.map range, width front + width kept + width gone ≤ r.1 := by
      intro r hr
      obtain ⟨f, hf, rfl⟩ := List.mem_map.1 hr
      rw [hlast]
      exact h.tail.ahead f hf
    rw [hsplice, landings, hfirst, List.map_cons, hrange,
      Text.remains_first_range (fun r hr => le_of_mem_landings hr),
      Text.remains_first_range hbehind, hlast, hstop, ih hlater]

/-! ## The frame -/

/-- Where the replacements of edits stand in the new text, in the order of the edits. -/
def places (edits : List Edit) : List (Nat × Nat) := landings 0 0 (edits.mergeSort before)

theorem isCovered_ordered (edits : List Edit) :
    isCovered ((edits.mergeSort before).map range) = isCovered (edits.map range) := by
  funext n
  exact ((List.mergeSort_perm edits before).map range).any_eq

/-- Edits that are applied write their replacements, and keep the text around them. -/
theorem applyAll_frame {source text : Text} {edits : List Edit}
    (h : applyAll source edits = .ok text) :
    List.Forall₂ (fun e r => slice? text r.1 r.2 = some e.replacement)
        (edits.mergeSort before) (places edits) ∧
      text.without (places edits) = source.without (edits.map range) := by
  obtain ⟨hord, rfl⟩ := applyAll_eq_ok h
  refine ⟨?_, ?_⟩
  · exact @InOrder.written [] _ _ hord []
  · have hkept := @InOrder.kept [] _ _ hord 0
    rw [isCovered_ordered] at hkept
    exact hkept

/-- Deletions write nothing anywhere. -/
theorem isCovered_landings {es : List Edit} (h : ∀ e ∈ es, e.replacement = []) (pos out n : Nat) :
    isCovered (landings pos out es) n = false := by
  induction es generalizing pos out with
  | nil => rfl
  | cons e es ih =>
    have hnone : width e.replacement = 0 := by rw [h e List.mem_cons_self]; rfl
    unfold landings
    rw [Text.isCovered_cons, ih fun f hf => h f (List.mem_cons_of_mem _ hf), hnone]
    simp

/-- Deletions that are applied leave the text around them. -/
theorem applyAll_deletions {source text : Text} {edits : List Edit}
    (hnone : ∀ e ∈ edits, e.replacement = []) (h : applyAll source edits = .ok text) :
    text = source.without (edits.map range) := by
  obtain ⟨_, hkept⟩ := applyAll_frame h
  rw [← hkept]
  unfold Text.without places
  rw [Text.remains_eq_self]
  intro n _ _
  apply isCovered_landings
  intro e he
  exact hnone e (List.mem_mergeSort.1 he)

end Uplift.Edit
