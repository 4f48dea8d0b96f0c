-- Edits of one file collide only over one method. In a snapshot that describes
-- its source, the edit around a method keeps clear of every other method, of the
-- state of its class and of every other class, whatever stands on its lines.
import Uplift.Proofs.Fix.Revision

namespace Uplift.Fix

open Revise (Widens StateSpot)

/-! ## Where an edit can reach -/

/-- The edit around a member stays between the braces of the class. -/
theorem member_edit_enclosed {source : Text} {c : ClassDecl} {m : Method} {e : Edit}
    (hw : c.WellFormed source) (hm : m ∈ c.members)
    (he : Widens source m.span.start m.span.stop e.start e.stop) :
    c.bodySpan.start + 1 ≤ e.start ∧ e.stop + 1 ≤ c.bodySpan.stop := by
  obtain ⟨hlen, hopen, hclose⟩ := hw.braced
  obtain ⟨h1, h2⟩ := hw.inside m hm
  have hleft := he.char_le_left hopen (by decide) (by omega) h1
  have hright := he.right_le_of_char hclose (by decide) (by omega) (by omega)
  omega

/-- Edits around two different members of a class keep clear of each other. -/
theorem member_edits_apart {source : Text} {c : ClassDecl} {m n : Method} {e f : Edit}
    (hw : c.WellFormed source) (hm : m ∈ c.members) (hn : n ∈ c.members) (hne : m ≠ n)
    (he : Widens source m.span.start m.span.stop e.start e.stop)
    (hf : Widens source n.span.start n.span.stop f.start f.stop) : Edit.Apart e f := by
  rcases hw.members_apart hm hn hne with h | h
  · exact Or.inl (he.apart hf (hw.solid m hm) (hw.solid n hn) h)
  · exact Or.inr (hf.apart he (hw.solid n hn) (hw.solid m hm) h)

/-- Edits between the braces of two classes that are apart keep clear of each other. -/
theorem class_edits_apart {source : Text} {c d : ClassDecl} {e f : Edit}
    (hc : c.WellFormed source) (hd : d.WellFormed source) (h : c.span.Apart d.span)
    (he : c.bodySpan.start + 1 ≤ e.start ∧ e.stop + 1 ≤ c.bodySpan.stop)
    (hf : d.bodySpan.start + 1 ≤ f.start ∧ f.stop + 1 ≤ d.bodySpan.stop) : Edit.Apart e f := by
  have hb : c.bodySpan.Apart d.bodySpan := h.of_contains hc.within hd.within
  unfold Span.Apart at hb
  unfold Edit.Apart
  omega

/-! ## All edits of a file -/

/-- A class in which one of the fixes finds its method. -/
def Touches (tree : Snapshot) (fixes : List Fix) (c : ClassDecl) : Prop :=
  ∃ fix ∈ fixes, ∃ m, locate? tree fix = some (c, m)

/-- The classes that the fixes touch share no byte. -/
def TouchesApart (tree : Snapshot) (fixes : List Fix) : Prop :=
  ∀ c d, Touches tree fixes c → Touches tree fixes d → c ≠ d → c.span.Apart d.span

section

variable {tree : Snapshot} {fixes : List Fix} {work : FileEdits} {placed : List Placed}
  {spots : List Spot}

theorem Gathered.placed_target (hg : Gathered tree fixes work placed) {p : Placed}
    (hp : p ∈ placed) : ∃ fix ∈ fixes, target? tree fix = some p.1 := by
  have hmem : p.1 ∈ placed.map (·.1) := List.mem_map_of_mem hp
  rw [hg.targets] at hmem
  exact List.mem_filterMap.1 hmem

theorem Gathered.placed_member (hg : Gathered tree fixes work placed) {p : Placed}
    (hp : p ∈ placed) :
    Touches tree fixes p.1.1 ∧ p.1.1 ∈ tree.classes ∧ p.1.2 ∈ p.1.1.members ∧
      p.1.2.isConstructor = false := by
  obtain ⟨fix, hfix, ht⟩ := hg.placed_target hp
  have hl := locate?_of_target? ht
  exact ⟨⟨fix, hfix, p.1.2, hl⟩, located_member hl⟩

theorem Gathered.spot_class (hg : Gathered tree fixes work placed)
    (hcls : spots.map (·.1) = work.states.map (·.cls)) {q : Spot} (hq : q ∈ spots) :
    Touches tree fixes q.1 ∧ q.1 ∈ tree.classes := by
  have hmem : q.1 ∈ spots.map (·.1) := List.mem_map_of_mem hq
  rw [hcls] at hmem
  obtain ⟨fix, hfix, m, _, ht⟩ := hg.queued q.1 hmem
  exact ⟨⟨fix, hfix, m, locate?_of_target? ht⟩, hg.queued_mem hmem⟩

/-- Every edit covers whole characters of the source. -/
theorem Gathered.edits_fit (hg : Gathered tree fixes work placed) (hw : tree.WellFormed)
    (hcls : spots.map (·.1) = work.states.map (·.cls)) (hspots : ∀ q ∈ spots, StateSpot q.1 q.2) :
    ∀ e ∈ placed.map (·.2) ++ spots.map (·.2), e.fits tree.source = true := by
  intro e he
  simp only [List.mem_append, List.mem_map] at he
  rcases he with ⟨p, hp, rfl⟩ | ⟨q, hq, rfl⟩
  · obtain ⟨_, hc, hm, _⟩ := hg.placed_member hp
    have hfit := hw.spans_fit.method hc hm
    have hwide := hg.widens p hp
    have h1 := hwide.left_le
    have h2 := hwide.le_right
    have h3 := hfit.1
    exact Edit.fits_iff.2 ⟨by omega, hwide.boundary_left, hwide.boundary_right⟩
  · have hc := (hg.spot_class hcls hq).2
    exact ((hspots q hq).place (hw.classes q.1 hc) hw.spans_fit hc).1

/-- Edits around different methods keep clear of each other. -/
theorem Gathered.placed_apart (hg : Gathered tree fixes work placed) (hw : tree.WellFormed)
    (happ : TouchesApart tree fixes) {p q : Placed} (hp : p ∈ placed) (hq : q ∈ placed)
    (hne : p.1 ≠ q.1) : Edit.Apart p.2 q.2 := by
  obtain ⟨hpt, hpc, hpm, _⟩ := hg.placed_member hp
  obtain ⟨hqt, hqc, hqm, _⟩ := hg.placed_member hq
  have hwp := hw.classes _ hpc
  have hwq := hw.classes _ hqc
  by_cases hcd : p.1.1 = q.1.1
  · have hmn : p.1.2 ≠ q.1.2 := fun he => hne (Prod.ext hcd he)
    rw [← hcd] at hqm
    exact member_edits_apart hwp hpm hqm hmn (hg.widens p hp) (hg.widens q hq)
  · exact class_edits_apart hwp hwq (happ _ _ hpt hqt hcd)
      (member_edit_enclosed hwp hpm (hg.widens p hp))
      (member_edit_enclosed hwq hqm (hg.widens q hq))

/-- The edit around a method keeps clear of the state of every class. -/
theorem Gathered.placed_apart_spot (hg : Gathered tree fixes work placed) (hw : tree.WellFormed)
    (happ : TouchesApart tree fixes) (hcls : spots.map (·.1) = work.states.map (·.cls))
    (hspots : ∀ q ∈ spots, StateSpot q.1 q.2) {p : Placed} {q : Spot} (hp : p ∈ placed)
    (hq : q ∈ spots) : Edit.Apart p.2 q.2 := by
  obtain ⟨hpt, hpc, hpm, hpk⟩ := hg.placed_member hp
  obtain ⟨hqt, hqc⟩ := hg.spot_class hcls hq
  have hwp := hw.classes _ hpc
  have hwq := hw.classes _ hqc
  by_cases hcd : p.1.1 = q.1
  · rw [hcd] at hpm
    exact (hspots q hq).apart_member hwq hw.spans_fit hqc hpm hpk (hg.widens p hp)
  · exact class_edits_apart hwp hwq (happ _ _ hpt hqt hcd)
      (member_edit_enclosed hwp hpm (hg.widens p hp))
      ((hspots q hq).enclosed hwq hw.spans_fit hqc)

/-- The states of two classes keep clear of each other. -/
theorem Gathered.spots_apart (hg : Gathered tree fixes work placed) (hw : tree.WellFormed)
    (happ : TouchesApart tree fixes) (hcls : spots.map (·.1) = work.states.map (·.cls))
    (hspots : ∀ q ∈ spots, StateSpot q.1 q.2) : (spots.map (·.2)).Pairwise Edit.Apart := by
  have hstarts := hg.starts
  rw [← hcls, List.pairwise_map] at hstarts
  rw [List.pairwise_map]
  refine hstarts.imp_of_mem ?_
  intro p q hp hq hne
  obtain ⟨hpt, hpc⟩ := hg.spot_class hcls hp
  obtain ⟨hqt, hqc⟩ := hg.spot_class hcls hq
  have hwp := hw.classes _ hpc
  have hwq := hw.classes _ hqc
  have hcd : p.1 ≠ q.1 := fun he => hne (by rw [he])
  exact class_edits_apart hwp hwq (happ _ _ hpt hqt hcd)
    ((hspots p hp).enclosed hwp hw.spans_fit hpc) ((hspots q hq).enclosed hwq hw.spans_fit hqc)

/-- All edits of a file keep clear of each other when no method is changed twice. -/
theorem Gathered.edits_apart (hg : Gathered tree fixes work placed) (hw : tree.WellFormed)
    (happ : TouchesApart tree fixes) (hcls : spots.map (·.1) = work.states.map (·.cls))
    (hspots : ∀ q ∈ spots, StateSpot q.1 q.2)
    (hone : (fixes.filterMap (target? tree)).Nodup) :
    (placed.map (·.2) ++ spots.map (·.2)).Pairwise Edit.Apart := by
  rw [List.pairwise_append]
  refine ⟨?_, hg.spots_apart hw happ hcls hspots, ?_⟩
  · unfold List.Nodup at hone
    rw [← hg.targets, List.pairwise_map] at hone
    rw [List.pairwise_map]
    refine hone.imp_of_mem ?_
    intro p q hp hq hne
    exact hg.placed_apart hw happ hp hq hne
  · intro e he f hf
    obtain ⟨p, hp, rfl⟩ := List.mem_map.1 he
    obtain ⟨q, hq, rfl⟩ := List.mem_map.1 hf
    exact hg.placed_apart_spot hw happ hcls hspots hp hq

/-- A method that is changed twice gets two edits that collide. -/
theorem Gathered.targets_nodup (hg : Gathered tree fixes work placed) (hw : tree.WellFormed)
    (h : (placed.map (·.2)).Pairwise Edit.Apart) : (fixes.filterMap (target? tree)).Nodup := by
  unfold List.Nodup
  rw [← hg.targets, List.pairwise_map]
  rw [List.pairwise_map] at h
  refine h.imp_of_mem ?_
  intro p q hp hq hap he
  obtain ⟨_, hc, hm, _⟩ := hg.placed_member hp
  -- Both edits cover the first character of the method.
  obtain ⟨_, end', _, _, hlt, hle⟩ := Text.isSolidAt_head ((hw.classes _ hc).solid _ hm)
  have hwp := hg.widens p hp
  have hwq := hg.widens q hq
  rw [← he] at hwq
  have h1 := hwp.left_le
  have h2 := hwp.le_right
  have h3 := hwq.left_le
  have h4 := hwq.le_right
  unfold Edit.Apart at hap
  omega

end

/-- In a snapshot that describes its source every class has a body, so only an initializer
that is no literal makes a class refuse its state. -/
theorem refused_unmergeable {source : Text} {c : ClassDecl} {e : ApplyError}
    (hw : c.WellFormed source) (h : Revise.StateOutcome c (.error e)) :
    ∃ line, e = .unmergeableState line := by
  cases h with
  | unmergeable line _ => exact ⟨line, rfl⟩
  | bodiless line hempty =>
    have := hw.braced.1
    simp only [Span.isEmpty, beq_iff_eq] at hempty
    omega

theorem Touches.mem_classes {tree : Snapshot} {fixes : List Fix} {c : ClassDecl}
    (h : Touches tree fixes c) : c ∈ tree.classes := by
  obtain ⟨fix, _, m, hl⟩ := h
  exact (located_member hl).1

/-- Classes that a class does not stand inside, and that do not stand inside it, share no byte
with it. -/
theorem touchesApart_of_not_nested {tree : Snapshot} (hw : tree.WellFormed) {fixes : List Fix}
    (h : ∀ c d, Touches tree fixes c → Touches tree fixes d → c ≠ d →
      c.span.contains d.span = false) : TouchesApart tree fixes := by
  intro c d hc hd hne
  rcases hw.nested_or_apart c hc.mem_classes d hd.mem_classes with h1 | h1 | h1
  · exact h1
  · simp [h c d hc hd hne] at h1
  · simp [h d c hd hc hne.symm] at h1

/-! ## The law -/

/-- Fixes that are about different methods, in classes of which none stands inside another,
never collide: the file is revised, or an initializer that is no literal is in the way. -/
theorem fixes_of_different_methods_never_collide (tree : Snapshot) (hw : tree.WellFormed)
    (fixes : List Fix) (hdistinct : (fixes.filterMap (locate? tree)).Nodup)
    (hnested : ∀ c d, Touches tree fixes c → Touches tree fixes d → c ≠ d →
      c.span.contains d.span = false) :
    ∃ r, reviseTree tree fixes = some r ∧
      (∀ a b, r ≠ .error (.overlappingEdits a b)) ∧
      (∀ a b len, r ≠ .error (.outOfBounds a b len)) ∧
      ((∃ revision, r = .ok revision) ∨ ∃ line, r = .error (.unmergeableState line)) := by
  have happ := touchesApart_of_not_nested hw hnested
  obtain ⟨work, placed, r, _, hg, hr, hrev⟩ := reviseTree_revised hw.spans_fit fixes
  have hend : (∃ revision, r = .ok revision) ∨ ∃ line, r = .error (.unmergeableState line) := by
    cases hrev with
    | refused c e hc hbad =>
      obtain ⟨line, rfl⟩ := refused_unmergeable (hw.classes c (hg.queued_mem hc)) hbad
      exact Or.inr ⟨line, rfl⟩
    | untouched _ => exact Or.inl ⟨_, rfl⟩
    | edited spots hcls hspots =>
      have hone : (fixes.filterMap (target? tree)).Nodup :=
        hdistinct.sublist (filterMap_target?_sublist tree fixes)
      obtain ⟨text, ht⟩ := Edit.applyAll_ok_of_apart (hg.edits_fit hw hcls hspots)
        (hg.edits_apart hw happ hcls hspots hone)
      exact Or.inl ⟨_, by rw [ht]; rfl⟩
  refine ⟨r, hr, ?_, ?_, hend⟩
  · rintro a b rfl
    simp at hend
  · rintro a b len rfl
    simp at hend

/-- A move, a removal and a rename, each about one method of the sample. -/
def sampleFixes : List Fix :=
  (Snapshot.sample.classes.flatMap ClassDecl.methods).zipWith
    (fun m kind => ⟨m.name, "A.jsx", m.line, .lifecycleMethods, .empty, "", m.text, [], kind,
      .high, none⟩) [.moveToConstructor, .remove, .rename]

/-- The sample is revised: state goes into the constructor, next to the methods that change. -/
theorem sample_fixes_never_collide :
    Snapshot.sample.WellFormed ∧
      (sampleFixes.filterMap (locate? Snapshot.sample)).Nodup ∧
      (sampleFixes.filterMap (locate? Snapshot.sample)).length = 3 ∧
      ∃ r, reviseTree Snapshot.sample sampleFixes = some r ∧
        (∀ a b, r ≠ .error (.overlappingEdits a b)) ∧
        ∀ a b len, r ≠ .error (.outOfBounds a b len) := by
  have hdistinct : (sampleFixes.filterMap (locate? Snapshot.sample)).Nodup := by decide +kernel
  have hnested : ∀ c d, Touches Snapshot.sample sampleFixes c →
      Touches Snapshot.sample sampleFixes d → c ≠ d → c.span.contains d.span = false := by
    rintro c d ⟨_, _, m, hl⟩ ⟨_, _, n, hl'⟩ hne
    have hc := List.mem_singleton.1 (located_member hl).1
    have hd := List.mem_singleton.1 (located_member hl').1
    exact absurd (hc.trans hd.symm) hne
  obtain ⟨r, hr, hover, hbounds, _⟩ := fixes_of_different_methods_never_collide Snapshot.sample
    Snapshot.sample_wellFormed sampleFixes hdistinct hnested
  exact ⟨Snapshot.sample_wellFormed, hdistinct, by decide +kernel, r, hr, hover, hbounds⟩

end Uplift.Fix
