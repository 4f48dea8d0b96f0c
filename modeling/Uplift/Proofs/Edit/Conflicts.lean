-- When a list of edits is refused. Edits are ordered by where they start and
-- only neighbours are compared, which is enough: edits that fit the text are
-- applied exactly when no two of them reach into each other.
import Uplift.Edit

namespace Uplift.Edit

/-- Neither edit reaches into the other. -/
def Apart (a b : Edit) : Prop := a.stop ≤ b.start ∨ b.stop ≤ a.start

theorem Apart.symm {a b : Edit} (h : Apart a b) : Apart b a := Or.comm.1 h

/-! ## The order of edits -/

theorem before_iff {a b : Edit} :
    before a b = true ↔ a.start < b.start ∨ a.start = b.start ∧ a.stop ≤ b.stop := by
  simp [before]

theorem before_trans (a b c : Edit) (h1 : before a b = true) (h2 : before b c = true) :
    before a c = true := by
  rw [before_iff] at *
  omega

theorem before_total (a b : Edit) : (before a b || before b a) = true := by
  rw [Bool.or_eq_true, before_iff, before_iff]
  omega

theorem ordered_pairwise (edits : List Edit) :
    (edits.mergeSort before).Pairwise fun a b => before a b = true :=
  List.pairwise_mergeSort before_trans before_total edits

theorem fits_iff {source : Text} {e : Edit} :
    e.fits source = true ↔ e.start ≤ e.stop ∧ Text.isBoundary source e.start = true ∧
      Text.isBoundary source e.stop = true := by
  simp [fits, and_assoc]

/-! ## Neighbours are enough -/

/-- Where every edit starts no later than it stops, no neighbours collide exactly when each
edit stops before all that come after it start. -/
theorem firstOverlap?_eq_none_iff {l : List Edit} (h : ∀ e ∈ l, e.start ≤ e.stop) :
    firstOverlap? l = none ↔ l.Pairwise fun a b => a.stop ≤ b.start := by
  induction l with
  | nil => simp [firstOverlap?]
  | cons a l ih =>
    cases l with
    | nil => simp [firstOverlap?]
    | cons b l =>
      have ih := ih (fun e he => h e (List.mem_cons_of_mem _ he))
      have hb : b.start ≤ b.stop := h b (by simp)
      unfold firstOverlap?
      split
      · rename_i hlt
        simp only [reduceCtorEq, false_iff]
        intro hp
        have := (List.pairwise_cons.1 hp).1 b (by simp)
        omega
      · rename_i hge
        rw [ih]
        refine ⟨fun hp => List.pairwise_cons.2 ⟨?_, hp⟩, fun hp => (List.pairwise_cons.1 hp).2⟩
        intro e he
        rcases List.mem_cons.1 he with rfl | he
        · omega
        · have := (List.pairwise_cons.1 hp).1 e he
          omega

/-- In order, two edits are apart exactly when the first stops before the second starts. -/
theorem stop_le_start_iff_apart {a b : Edit} (hb : b.start ≤ b.stop)
    (hab : before a b = true) : a.stop ≤ b.start ↔ Apart a b := by
  rw [before_iff] at hab
  unfold Apart
  omega

theorem firstOverlap?_ordered {edits : List Edit} (h : ∀ e ∈ edits, e.start ≤ e.stop) :
    firstOverlap? (edits.mergeSort before) = none ↔ edits.Pairwise Apart := by
  have hmem : ∀ e ∈ edits.mergeSort before, e.start ≤ e.stop := fun e he =>
    h e (List.mem_mergeSort.1 he)
  rw [firstOverlap?_eq_none_iff hmem,
    ← (List.mergeSort_perm edits before).pairwise_iff Apart.symm]
  have hord := ordered_pairwise edits
  constructor
  · intro hp
    refine hp.imp ?_
    exact fun hab => Or.inl hab
  · intro hp
    refine (List.pairwise_and_iff.2 ⟨hord, hp⟩).imp_of_mem ?_
    rintro a b _ hb ⟨hab, hap⟩
    exact (stop_le_start_iff_apart (hmem b hb) hab).2 hap

/-! ## Applied or refused -/

/-- Edits are refused for their places only. -/
theorem applyAll_error {source : Text} {edits : List Edit} {e : ApplyError}
    (h : applyAll source edits = .error e) :
    (∃ a b len, e = .outOfBounds a b len) ∨ ∃ a b, e = .overlappingEdits a b := by
  unfold applyAll at h
  dsimp only at h
  split at h
  · cases h
    exact Or.inl ⟨_, _, _, rfl⟩
  · split at h
    · cases h
      exact Or.inr ⟨_, _, rfl⟩
    · cases h

theorem applyAll_ok_of_apart {source : Text} {edits : List Edit}
    (hfit : ∀ e ∈ edits, e.fits source = true) (hap : edits.Pairwise Apart) :
    ∃ t, applyAll source edits = .ok t := by
  have hnone : (edits.mergeSort before).find? (!·.fits source) = none := by
    rw [List.find?_eq_none]
    intro e he
    simp [hfit e (List.mem_mergeSort.1 he)]
  have hover := (firstOverlap?_ordered (fun e he => (fits_iff.1 (hfit e he)).1)).2 hap
  unfold applyAll
  simp only [hnone, hover]
  exact ⟨_, rfl⟩

theorem applyAll_overlap_of_not_apart {source : Text} {edits : List Edit}
    (hfit : ∀ e ∈ edits, e.fits source = true) (hap : ¬ edits.Pairwise Apart) :
    ∃ a b, applyAll source edits = .error (.overlappingEdits a b) := by
  have hnone : (edits.mergeSort before).find? (!·.fits source) = none := by
    rw [List.find?_eq_none]
    intro e he
    simp [hfit e (List.mem_mergeSort.1 he)]
  cases hover : firstOverlap? (edits.mergeSort before) with
  | none =>
    exact absurd ((firstOverlap?_ordered (fun e he => (fits_iff.1 (hfit e he)).1)).1 hover) hap
  | some p =>
    unfold applyAll
    simp only [hnone, hover]
    exact ⟨_, _, rfl⟩

end Uplift.Edit
