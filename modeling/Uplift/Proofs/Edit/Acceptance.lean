-- Which edits are applied. A list of edits is accepted exactly when every edit
-- covers whole characters of the text and no two of them collide, wherever they
-- stand in the list. Otherwise the refusal names the least edit that does not
-- fit, and two edits that collide only when all of them fit. Applying accepted
-- edits reads the text by slices, and there is a text for each of them.
import Uplift.Proofs.Edit.Frame

namespace Uplift.Edit

open Text (width slice? isBoundary)

/-- The edit lies in the text, and covers whole characters of it. -/
def Covers (source : Text) (e : Edit) : Prop :=
  e.start ≤ e.stop ∧ e.stop ≤ width source ∧ isBoundary source e.start = true ∧
    isBoundary source e.stop = true

/-- No two edits of the list reach into each other. -/
def ConflictFree (edits : List Edit) : Prop :=
  ∀ i j (hi : i < edits.length) (hj : j < edits.length), i ≠ j → Apart edits[i] edits[j]

/-- No edit of the list that does not fit comes before this one. -/
def IsLeastMisfit (source : Text) (edits : List Edit) (e : Edit) : Prop :=
  e ∈ edits ∧ ¬ Covers source e ∧ ∀ f ∈ edits, ¬ Covers source f → before e f = true

/-- Ordered edits applied by slices: the source from byte `pos` up to each edit, then its
replacement, and last the source behind all edits. A slice that is out of range or splits a
character has no text, and then there is no answer. -/
def applySlices? (source : Text) (pos : Nat) : List Edit → Option Text
  | [] => slice? source pos (width source)
  | e :: es => do
    let kept ← slice? source pos e.start
    let rest ← applySlices? source e.stop es
    some (kept ++ e.replacement ++ rest)

/-! ## Edits that fit -/

theorem fits_iff_covers {source : Text} {e : Edit} :
    e.fits source = true ↔ Covers source e := by
  rw [fits_iff]
  unfold Covers
  constructor
  · rintro ⟨hle, hstart, hstop⟩
    refine ⟨hle, ?_, hstart, hstop⟩
    obtain ⟨u, v, rfl, hu⟩ := Text.isBoundary_iff.1 hstop
    rw [Text.width_append]
    omega
  · rintro ⟨hle, _, hstart, hstop⟩
    exact ⟨hle, hstart, hstop⟩

theorem conflictFree_iff {edits : List Edit} : ConflictFree edits ↔ edits.Pairwise Apart := by
  rw [List.pairwise_iff_getElem]
  unfold ConflictFree
  constructor
  · intro h i j hi hj hij
    exact h i j hi hj (by omega)
  · intro h i j hi hj hne
    by_cases hij : i < j
    · exact h i j hi hj hij
    · exact (h j i hj hi (by omega)).symm

/-! ## Refusals -/

theorem find?_misfit_eq_none {source : Text} {edits : List Edit} :
    (edits.mergeSort before).find? (!·.fits source) = none ↔ ∀ e ∈ edits, Covers source e := by
  rw [List.find?_eq_none]
  constructor
  · intro h e he
    have := h e (List.mem_mergeSort.2 he)
    apply fits_iff_covers.1
    simpa using this
  · intro h e he
    have := fits_iff_covers.2 (h e (List.mem_mergeSort.1 he))
    simp [this]

/-- The edit that is found first is the least: the edits are searched in order. -/
theorem find?_misfit_eq_some {source : Text} {edits : List Edit} {e : Edit}
    (h : (edits.mergeSort before).find? (!·.fits source) = some e) :
    IsLeastMisfit source edits e := by
  obtain ⟨hmisfit, l, r, hordered, hl⟩ := List.find?_eq_some_iff_append.1 h
  have hsorted := ordered_pairwise edits
  rw [hordered] at hsorted
  refine ⟨?_, ?_, ?_⟩
  · have hmem : e ∈ edits.mergeSort before := by simp [hordered]
    exact List.mem_mergeSort.1 hmem
  · intro hcovers
    simp [fits_iff_covers.2 hcovers] at hmisfit
  · intro f hf hnot
    have hmem : f ∈ l ++ e :: r := hordered ▸ List.mem_mergeSort.2 hf
    rcases List.mem_append.1 hmem with hfl | hfr
    · have hfits := hl f hfl
      simp only [Bool.not_not] at hfits
      exact absurd (fits_iff_covers.1 hfits) hnot
    · rcases List.mem_cons.1 hfr with rfl | hfr
      · rw [before_iff]
        omega
      · exact (List.pairwise_cons.1 (List.pairwise_append.1 hsorted).2.1).1 f hfr

theorem applyAll_misfit {source : Text} {edits : List Edit}
    (h : ¬ ∀ e ∈ edits, Covers source e) :
    ∃ e, IsLeastMisfit source edits e ∧
      applyAll source edits = .error (.outOfBounds e.start e.stop (width source)) := by
  cases hfind : (edits.mergeSort before).find? (!·.fits source) with
  | none => exact absurd (find?_misfit_eq_none.1 hfind) h
  | some e =>
    refine ⟨e, find?_misfit_eq_some hfind, ?_⟩
    unfold applyAll
    simp only [hfind]

/-- Two least edits that do not fit have the same range. -/
theorem IsLeastMisfit.range_eq {source : Text} {edits : List Edit} {e f : Edit}
    (he : IsLeastMisfit source edits e) (hf : IsLeastMisfit source edits f) :
    e.start = f.start ∧ e.stop = f.stop := by
  obtain ⟨he, hen, hel⟩ := he
  obtain ⟨hf, hfn, hfl⟩ := hf
  have h1 := before_iff.1 (hel f hf hfn)
  have h2 := before_iff.1 (hfl e he hen)
  omega

/-! ## Slices -/

/-- Edits in order are applied by slices, and every slice has a text. -/
theorem InOrder.applySlices?_eq {front rest : Text} {es : List Edit}
    (h : InOrder (front ++ rest) (width front) es) :
    applySlices? (front ++ rest) (width front) es = some (splice rest (width front) es) := by
  induction es generalizing front rest with
  | nil =>
    unfold applySlices? splice
    apply Text.slice?_eq_some_iff.2
    exact ⟨front, [], by simp, rfl, by simp⟩
  | cons e es ih =>
    obtain ⟨kept, gone, tail, rfl, hstart, hstop, hsplice⟩ := h.splice_cons
    have hlater := h.tail_of_stop hstop
    have hkept : slice? (front ++ (kept ++ gone ++ tail)) (width front) e.start = some kept := by
      apply Text.slice?_eq_some_iff.2
      refine ⟨front, gone ++ tail, by simp, rfl, ?_⟩
      rw [hstart, Text.width_append]
    have hrest := ih hlater
    rw [← hstop] at hrest
    rw [hsplice]
    unfold applySlices?
    rw [hkept]
    simp only [List.append_assoc] at hrest ⊢
    simp [hrest]

/-! ## Accepted or refused -/

/-- Edits are applied exactly when each covers whole characters of the source and no two of them
collide. They are out of bounds exactly when one does not fit, and the least such edit is named;
in all other cases they overlap. The slices that accepted edits leave of the source lie in it
and split no character. -/
theorem edits_are_applied_exactly_when_they_fit_and_never_collide (source : Text)
    (edits : List Edit) :
    ((∃ text, applyAll source edits = .ok text) ↔
      (∀ e ∈ edits, Covers source e) ∧ ConflictFree edits) ∧
    (∀ start stop len, applyAll source edits = .error (.outOfBounds start stop len) ↔
      len = width source ∧
        ∃ e, IsLeastMisfit source edits e ∧ start = e.start ∧ stop = e.stop) ∧
    ((∃ first second, applyAll source edits = .error (.overlappingEdits first second)) ↔
      (∀ e ∈ edits, Covers source e) ∧ ¬ ConflictFree edits) ∧
    (∀ text, applyAll source edits = .ok text →
      applySlices? source 0 (edits.mergeSort before) = some text) := by
  rw [conflictFree_iff]
  by_cases hfit : ∀ e ∈ edits, Covers source e
  · have hfits : ∀ e ∈ edits, e.fits source = true := fun e he => fits_iff_covers.2 (hfit e he)
    have hnone : ∀ e, ¬ IsLeastMisfit source edits e := fun e he => he.2.1 (hfit e he.1)
    by_cases hapart : edits.Pairwise Apart
    · obtain ⟨text, htext⟩ := applyAll_ok_of_apart hfits hapart
      obtain ⟨hord, hsplice⟩ := applyAll_eq_ok htext
      refine ⟨?_, by simp [htext, hnone], by simp [htext, hapart], ?_⟩
      · exact ⟨fun _ => ⟨hfit, hapart⟩, fun _ => ⟨text, htext⟩⟩
      intro text' htext'
      obtain rfl : text = text' := Except.ok.inj (htext.symm.trans htext')
      rw [hsplice]
      exact @InOrder.applySlices?_eq [] _ _ hord
    · obtain ⟨first, second, herr⟩ := applyAll_overlap_of_not_apart hfits hapart
      refine ⟨by simp [herr, hapart], by simp [herr, hnone], ?_, by simp [herr]⟩
      exact ⟨fun _ => ⟨hfit, hapart⟩, fun _ => ⟨first, second, herr⟩⟩
  · obtain ⟨e, he, herr⟩ := applyAll_misfit hfit
    refine ⟨by simp [herr, hfit], ?_, by simp [herr, hfit], by simp [herr]⟩
    intro start stop len
    rw [herr]
    simp only [Except.error.injEq, ApplyError.outOfBounds.injEq]
    constructor
    · rintro ⟨rfl, rfl, rfl⟩
      exact ⟨rfl, e, he, rfl, rfl⟩
    · rintro ⟨rfl, f, hf, rfl, rfl⟩
      obtain ⟨hstart, hstop⟩ := he.range_eq hf
      exact ⟨hstart, hstop, rfl⟩

end Uplift.Edit
