-- What survives the revision of a file. Take the methods that the fixes change
-- and the places of new state out of the source, and take what was written for
-- them out of the new text: up to blanks the same text remains. A move whose
-- state cannot be read changes nothing, so its method survives with the rest.
import Uplift.Proofs.Edit.Frame
import Uplift.Proofs.Fix.Collisions
import Uplift.Proofs.Fix.Tally

namespace Uplift.Fix

open Revise (Widens)
open Text (slice? isBlank isCovered solids)

/-! ## The edits of a file -/

/-- The edit of a fix at the method that it changes: a rename writes the method anew, and any
other change removes it. -/
def memberEdit? (tree : Snapshot) (fix : Fix) : Option Edit :=
  (target? tree fix).bind fun (_, m) =>
    if fix.kind = .rename then
      some ⟨m.span.start, m.span.stop, Rename.renamedText m (Rename.modernHook m.name)⟩
    else Revise.removalEdit? tree.source m.span

theorem addEdits_edits {tree : Snapshot} {work work' : FileEdits} {fix : Fix}
    (h : addEdits tree work fix = some work') :
    work'.edits = work.edits ++ (memberEdit? tree fix).toList := by
  unfold addEdits at h
  unfold memberEdit?
  cases hl : locate? tree fix with
  | none =>
    rw [hl] at h
    cases h
    simp [target?, hl]
  | some p =>
    obtain ⟨c, m⟩ := p
    simp only [hl] at h
    cases hk : fix.kind with
    | remove =>
      simp only [hk, Option.bind_eq_bind, Option.bind_eq_some_iff, Option.some.injEq] at h
      obtain ⟨e, he, rfl⟩ := h
      simp [target?, hl, hk, he, Option.filter]
    | rename =>
      simp only [hk, Option.some.injEq] at h
      subst h
      simp [target?, hl, hk, Option.filter]
    | manualReview =>
      simp only [hk, Option.some.injEq] at h
      subst h
      simp [target?, hl, hk]
    | moveToConstructor =>
      simp only [hk] at h
      cases hx : State.extract? tree m with
      | none =>
        rw [hx] at h
        cases h
        simp [target?, hl, hk, hx]
      | some props =>
        simp only [hx, Option.bind_eq_bind, Option.bind_eq_some_iff, Option.some.injEq] at h
        obtain ⟨states, _, e, he, rfl⟩ := h
        simp [target?, hl, hk, hx, he, Option.filter]

theorem run_edits {tree : Snapshot} {fixes : List Fix} {work : FileEdits}
    (h : fixes.foldlM (addEdits tree) {} = some work) :
    work.edits = fixes.filterMap (memberEdit? tree) := by
  induction fixes using List.reverseRecOn generalizing work with
  | nil =>
    cases h
    rfl
  | append_singleton fixes fix ih =>
    rw [List.foldlM_append] at h
    simp only [List.foldlM_cons, List.foldlM_nil, bind_pure, Option.bind_eq_bind,
      Option.bind_eq_some_iff] at h
    obtain ⟨before, hrun, hlast⟩ := h
    rw [addEdits_edits hlast, ih hrun, List.filterMap_append, List.filterMap_eq_flatMap_toList _ [fix]]
    simp

/-- A file with a new text was given it by the edits of its fixes and of its states. -/
theorem reviseTree_text {tree : Snapshot} {fixes : List Fix} {revision : FileRevision}
    {text : Text} (h : reviseTree tree fixes = some (.ok revision))
    (htext : revision.contents = some text) :
    ∃ work states, fixes.foldlM (addEdits tree) {} = some work ∧
      stateEdits tree work.states = some (.ok states) ∧
      Edit.applyAll tree.source (work.edits ++ states) = .ok text := by
  unfold reviseTree at h
  obtain ⟨work, hwork, h⟩ := Revise.bind_eq_ok h
  obtain ⟨states, hstates, h⟩ := Revise.bind_eq_ok h
  have hrun : fixes.foldlM (addEdits tree) {} = some work := by
    unfold Revise.fitting at hwork
    cases hfold : fixes.foldlM (addEdits tree) {} with
    | none =>
      rw [hfold] at hwork
      cases hwork
    | some work' =>
      rw [hfold] at hwork
      cases hwork
      rfl
  refine ⟨work, states, hrun, hstates, ?_⟩
  by_cases hnone : (work.edits ++ states).isEmpty = true
  · rw [if_pos hnone] at h
    cases h
    cases htext
  · rw [if_neg hnone] at h
    obtain ⟨new, hnew, h⟩ := Revise.bind_eq_ok h
    cases h
    cases htext
    exact Option.some.inj hnew

/-! ## The methods under the edits -/

/-- The spans of the methods that the fixes change. -/
def changedSpans (tree : Snapshot) (fixes : List Fix) : List (Nat × Nat) :=
  (fixes.filterMap (target? tree)).map fun p => (p.2.span.start, p.2.span.stop)

/-- Of the characters that are not blank, the edits take those of the methods. -/
theorem Gathered.covers {tree : Snapshot} {fixes : List Fix} {work : FileEdits}
    {placed : List Placed} (hg : Gathered tree fixes work placed) {c : Char} {p q : Nat}
    (hc : slice? tree.source p q = some [c]) (hb : isBlank c = false) :
    isCovered (work.edits.map Edit.range) p = isCovered (changedSpans tree fixes) p := by
  unfold changedSpans
  rw [hg.edits, ← hg.targets]
  unfold isCovered
  simp only [List.any_map]
  rw [Bool.eq_iff_iff, List.any_eq_true, List.any_eq_true]
  refine exists_congr fun x => and_congr_right fun hx => ?_
  simp only [Function.comp_apply, Bool.and_eq_true, decide_eq_true_eq]
  exact (hg.widens x hx).covers_iff hc hb

/-! ## The law -/

/-- The new text of a file has each replacement of its edits in one place, and around those
places it is the source around the changed methods and the places of new state: what is not
blank stands in it once and in order. -/
theorem what_no_fix_changes_survives (tree : Snapshot) (hfit : tree.SpansFit) (fixes : List Fix)
    (revision : FileRevision) (text : Text) (h : reviseTree tree fixes = some (.ok revision))
    (htext : revision.contents = some text) :
    ∃ work states, fixes.foldlM (addEdits tree) {} = some work ∧
      stateEdits tree work.states = some (.ok states) ∧
      work.edits = fixes.filterMap (memberEdit? tree) ∧
      List.Forall₂ (fun e place => slice? text place.1 place.2 = some e.replacement)
        ((work.edits ++ states).mergeSort Edit.before) (Edit.places (work.edits ++ states)) ∧
      solids (text.without (Edit.places (work.edits ++ states))) =
        solids (tree.source.without (changedSpans tree fixes ++ states.map Edit.range)) := by
  obtain ⟨work, states, hrun, hstates, happly⟩ := reviseTree_text h htext
  obtain ⟨work', placed, hrun', hg⟩ := gathered_run hfit fixes
  obtain rfl := Option.some.inj (hrun.symm.trans hrun')
  obtain ⟨hwritten, hkept⟩ := Edit.applyAll_frame happly
  refine ⟨work, states, hrun, hstates, run_edits hrun, hwritten, ?_⟩
  rw [hkept]
  apply Text.solids_without_congr
  intro c p q hc hb
  rw [List.map_append, Text.isCovered_append, Text.isCovered_append, hg.covers hc hb]

/-- The sample is given a new text by a move, a removal and a rename. -/
theorem sampleFixes_revise :
    ∃ revision text, reviseTree Snapshot.sample sampleFixes = some (.ok revision) ∧
      revision.contents = some text := by
  have hw := Snapshot.sample_wellFormed
  have hone : (sampleFixes.filterMap (target? Snapshot.sample)).Nodup := by decide +kernel
  have happ : TouchesApart Snapshot.sample sampleFixes := by
    intro c d hc hd hne
    exact absurd ((List.mem_singleton.1 hc.mem_classes).trans
      (List.mem_singleton.1 hd.mem_classes).symm) hne
  obtain ⟨work, placed, r, _, hg, hr, hrev⟩ := reviseTree_revised hw.spans_fit sampleFixes
  cases hrev with
  | refused c e hc hbad =>
    have hmem := List.mem_singleton.1 (hg.queued_mem hc)
    cases hbad with
    | unmergeable line hno =>
      rw [hmem] at hno
      exact absurd hno (by decide +kernel)
    | bodiless line hno =>
      rw [hmem] at hno
      exact absurd hno (by decide +kernel)
  | untouched hnone =>
    have htargets := hg.targets
    rw [hnone] at htargets
    exact absurd htargets (by decide +kernel)
  | edited spots hcls hspots =>
    obtain ⟨text, ht⟩ := Edit.applyAll_ok_of_apart (hg.edits_fit hw hcls hspots)
      (hg.edits_apart hw happ hcls hspots hone)
    rw [ht] at hr
    exact ⟨_, text, hr, rfl⟩

/-- Three methods of the sample go or are renamed; the rest of it survives. -/
theorem the_rest_of_the_sample_survives :
    Snapshot.sample.SpansFit ∧ (changedSpans Snapshot.sample sampleFixes).length = 3 ∧
      ∃ (revision : FileRevision) (text : Text) (states : List Edit) (places : List (Nat × Nat)),
        reviseTree Snapshot.sample sampleFixes = some (.ok revision) ∧
        revision.contents = some text ∧
        solids (text.without places) = solids (Snapshot.sample.source.without
          (changedSpans Snapshot.sample sampleFixes ++ states.map Edit.range)) := by
  have hfit := Snapshot.sample_wellFormed.spans_fit
  obtain ⟨revision, text, h, htext⟩ := sampleFixes_revise
  obtain ⟨work, states, _, _, _, _, hsame⟩ := what_no_fix_changes_survives Snapshot.sample hfit
    sampleFixes revision text h htext
  exact ⟨hfit, by decide +kernel, revision, text, states, _, h, htext, hsame⟩

/-! ## A move without state -/

/-- The spans of all methods that the fixes find. -/
def locatedSpans (tree : Snapshot) (fixes : List Fix) : List (Nat × Nat) :=
  ((fixes.filter (·.kind ≠ .manualReview)).filterMap (locate? tree)).map fun p =>
    (p.2.span.start, p.2.span.stop)

/-- A removal in the sample, and a move of a method that sets no state. -/
def statelessFixes : List Fix :=
  (Snapshot.sample.classes.flatMap ClassDecl.methods).zipWith
    (fun m kind => ⟨m.name, "A.jsx", m.line, .lifecycleMethods, .empty, "", m.text, [], kind,
      .high, none⟩) [.manualReview, .remove, .moveToConstructor]

/-- The sample after those fixes. -/
def statelessText : Text :=
  ("class A \x7b\n  constructor() \x7b\x7d\n" ++
    "  componentWillMount() \x7b this.setState(\x7b a: 1 \x7d); \x7d\n" ++
    "  componentWillUpdate() \x7b go(); \x7d\n\x7d\n").toList

deriving instance DecidableEq for PendingState, FileEdits, FileRevision

/-- A move finds its method and leaves it where it is when the method sets no state. -/
theorem a_move_without_state_leaves_its_method :
    ¬ ∀ (tree : Snapshot) (fixes : List Fix) (revision : FileRevision) (text : Text)
        (work : FileEdits) (states : List Edit), tree.SpansFit →
      reviseTree tree fixes = some (.ok revision) → revision.contents = some text →
      fixes.foldlM (addEdits tree) {} = some work →
      stateEdits tree work.states = some (.ok states) →
      solids (text.without (Edit.places (work.edits ++ states))) =
        solids (tree.source.without (locatedSpans tree fixes ++ states.map Edit.range)) := by
  intro h
  have hnew : @Eq (Option (Except ApplyError FileRevision))
      (reviseTree Snapshot.sample statelessFixes) (some (.ok ⟨some statelessText, 1, 1⟩)) := by
    decide +kernel
  have hsame := h Snapshot.sample statelessFixes ⟨some statelessText, 1, 1⟩ statelessText
    ⟨[.delete 81 114], [], 1, 1⟩ [] Snapshot.sample_wellFormed.spans_fit hnew rfl
    (by decide +kernel) rfl
  exact absurd hsame (by decide +kernel)

end Uplift.Fix
