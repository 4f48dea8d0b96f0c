-- Removing members. A removal takes its member and blanks around it, and where
-- it ends no other removal has begun. So any members that share no byte can be
-- removed at once, and what is left is the text around them, blanks apart.
import Uplift.Proofs.Edit.Acceptance
import Uplift.Proofs.Revise.Removal
import Uplift.Proofs.Snapshot.Spans

namespace Uplift.Revise

open Text (slice? width isBoundary isBlank isSolidAt isCovered solids)

/-- The edits remove the spans, one each and in order. -/
def Removes (source : Text) (spans : List Span) (edits : List Edit) : Prop :=
  List.Forall₂ (fun s e => removalEdit? source s = some e) spans edits

/-! ## One removal -/

theorem widens_of_removalEdit? {source : Text} {s : Span} {e : Edit}
    (h : removalEdit? source s = some e) : Widens source s.start s.stop e.start e.stop :=
  removalRange?_widens (removalEdit?_eq_some.1 h).1

/-- A removal of a span that fits the source fits it too. -/
theorem Widens.covers {source : Text} {s : Span} {e : Edit}
    (h : Widens source s.start s.stop e.start e.stop) (hle : s.start ≤ s.stop) :
    Edit.Covers source e := by
  have hleft := h.left_le
  have hright := h.le_right
  apply Edit.fits_iff_covers.1
  apply Edit.fits_iff.2
  exact ⟨by omega, h.boundary_left, h.boundary_right⟩

/-- What a removal takes besides its span is blank. -/
theorem Widens.blank_or_inside {source : Text} {start stop a b : Nat}
    (h : Widens source start stop a b) {c : Char} {p q : Nat}
    (hc : slice? source p q = some [c]) (hp : a ≤ p ∧ p < b) :
    isBlank c = true ∨ (start ≤ p ∧ p < stop) := by
  cases hb : isBlank c with
  | true => exact Or.inl rfl
  | false => exact Or.inr ((h.covers_iff hc hb).1 hp)

/-- A solid piece lies in the text and starts before it stops. -/
theorem fits_of_isSolidAt {source : Text} {s : Span}
    (h : isSolidAt source s.start s.stop = true) : s.Fits source := by
  obtain ⟨mid, hm, _⟩ := (Option.any_eq_true _ _).1 h
  exact ⟨Text.slice?_le hm, Text.slice?_boundary_left hm, Text.slice?_boundary_right hm⟩

/-- The removals of two solid spans that share no byte keep clear of each other. -/
theorem removals_apart {source : Text} {s t : Span} {e f : Edit}
    (hs : isSolidAt source s.start s.stop = true) (ht : isSolidAt source t.start t.stop = true)
    (hst : s.Apart t) (he : removalEdit? source s = some e)
    (hf : removalEdit? source t = some f) : Edit.Apart e f := by
  have hwe := widens_of_removalEdit? he
  have hwf := widens_of_removalEdit? hf
  rcases hst with h | h
  · exact Or.inl (hwe.apart hwf hs ht h)
  · exact Or.inr (hwf.apart hwe ht hs h)

/-! ## Removals together -/

namespace Removes

variable {source : Text} {spans : List Span} {edits : List Edit}

theorem exists_span (h : Removes source spans edits) {e : Edit} (he : e ∈ edits) :
    ∃ s ∈ spans, removalEdit? source s = some e := by
  induction h with
  | nil => cases he
  | cons hfirst _ ih =>
    rcases List.mem_cons.1 he with rfl | he
    · exact ⟨_, List.mem_cons_self, hfirst⟩
    · obtain ⟨s, hs, hse⟩ := ih he
      exact ⟨s, List.mem_cons_of_mem _ hs, hse⟩

theorem replacement (h : Removes source spans edits) {e : Edit} (he : e ∈ edits) :
    e.replacement = [] := by
  obtain ⟨s, _, hs⟩ := h.exists_span he
  exact (removalEdit?_eq_some.1 hs).2

theorem fits (h : Removes source spans edits)
    (hsolid : ∀ s ∈ spans, isSolidAt source s.start s.stop = true) :
    ∀ e ∈ edits, e.fits source = true := by
  intro e he
  obtain ⟨s, hs, hse⟩ := h.exists_span he
  have hfit := fits_of_isSolidAt (hsolid s hs)
  apply Edit.fits_iff_covers.2
  exact (widens_of_removalEdit? hse).covers hfit.1

theorem apart (h : Removes source spans edits)
    (hsolid : ∀ s ∈ spans, isSolidAt source s.start s.stop = true)
    (hspans : spans.Pairwise Span.Apart) : edits.Pairwise Edit.Apart := by
  induction h with
  | nil => exact List.Pairwise.nil
  | @cons s e spans edits hfirst hrest ih =>
    obtain ⟨hhead, htail⟩ := List.pairwise_cons.1 hspans
    apply List.pairwise_cons.2
    refine ⟨?_, ih (fun t ht => hsolid t (List.mem_cons_of_mem _ ht)) htail⟩
    intro f hf
    obtain ⟨t, ht, htf⟩ := exists_span hrest hf
    exact removals_apart (hsolid s List.mem_cons_self) (hsolid t (List.mem_cons_of_mem _ ht))
      (hhead t ht) hfirst htf

/-- Of the characters that are not blank, removals take those of the spans. -/
theorem covers (h : Removes source spans edits) {c : Char} {p q : Nat}
    (hc : slice? source p q = some [c]) (hb : isBlank c = false) :
    isCovered (edits.map Edit.range) p = isCovered (spans.map fun s => (s.start, s.stop)) p := by
  induction h with
  | nil => rfl
  | cons hfirst _ ih =>
    have hsame := (widens_of_removalEdit? hfirst).covers_iff hc hb
    rw [List.map_cons, List.map_cons, Text.isCovered_cons, Text.isCovered_cons, ih]
    congr 1
    rw [Bool.eq_iff_iff]
    simp only [Bool.and_eq_true, decide_eq_true_eq]
    exact hsame

end Removes

/-- Spans that fit the source can each be removed. -/
theorem exists_removes {source : Text} {spans : List Span} (h : ∀ s ∈ spans, s.Fits source) :
    ∃ edits, Removes source spans edits := by
  induction spans with
  | nil => exact ⟨[], .nil⟩
  | cons s spans ih =>
    have hs := h s List.mem_cons_self
    obtain ⟨edits, hedits⟩ := ih fun t ht => h t (List.mem_cons_of_mem _ ht)
    obtain ⟨e, he, _⟩ := exists_removalEdit? hs.2.1 hs.2.2
    exact ⟨e :: edits, .cons he hedits⟩

/-- Members that share no byte are removed in one go. -/
theorem Removes.exists_text {source : Text} {spans : List Span} {edits : List Edit}
    (h : Removes source spans edits)
    (hsolid : ∀ s ∈ spans, isSolidAt source s.start s.stop = true)
    (hspans : spans.Pairwise Span.Apart) :
    ∃ text, Edit.applyAll source edits = .ok text ∧
      text = source.without (edits.map Edit.range) := by
  obtain ⟨text, htext⟩ := Edit.applyAll_ok_of_apart (h.fits hsolid) (h.apart hsolid hspans)
  exact ⟨text, htext, Edit.applyAll_deletions (fun e he => h.replacement he) htext⟩

/-! ## The law -/

/-- A removal takes only blanks besides its span, and keeps clear of other removals. The edit
that removes a span covers the span and whole characters of the source, and what it covers
outside the span is blank. The removals of two members that share no byte do not reach into
each other, so any such members are removed at once, and the text that is left is the text
around the members, blanks apart. -/
theorem a_removal_takes_blanks_besides_and_keeps_clear (source : Text) :
    (∀ s : Span, s.start < s.stop → isBoundary source s.start = true →
      isBoundary source s.stop = true →
      ∃ e, removalEdit? source s = some e ∧ e.replacement = [] ∧ Edit.Covers source e ∧
        e.start ≤ s.start ∧ s.stop ≤ e.stop ∧
        ∀ c p q, slice? source p q = some [c] → e.start ≤ p ∧ p < e.stop →
          isBlank c = true ∨ (s.start ≤ p ∧ p < s.stop)) ∧
    (∀ s t : Span, isSolidAt source s.start s.stop = true →
      isSolidAt source t.start t.stop = true → s.Apart t →
      ∃ e f, removalEdit? source s = some e ∧ removalEdit? source t = some f ∧
        Edit.Apart e f) ∧
    ∀ spans : List Span, (∀ s ∈ spans, isSolidAt source s.start s.stop = true) →
      spans.Pairwise Span.Apart →
      ∃ edits text, Removes source spans edits ∧ Edit.applyAll source edits = .ok text ∧
        solids text = solids (source.without (spans.map fun s => (s.start, s.stop))) := by
  refine ⟨?_, ?_, ?_⟩
  · intro s hlt hstart hstop
    obtain ⟨e, he, hnone, hwide⟩ := exists_removalEdit? hstart hstop
    refine ⟨e, he, hnone, hwide.covers (by omega), hwide.left_le, hwide.le_right, ?_⟩
    intro c p q hc hp
    exact hwide.blank_or_inside hc hp
  · intro s t hs ht hst
    have hfs := fits_of_isSolidAt hs
    have hft := fits_of_isSolidAt ht
    obtain ⟨e, he, _⟩ := exists_removalEdit? hfs.2.1 hfs.2.2
    obtain ⟨f, hf, _⟩ := exists_removalEdit? hft.2.1 hft.2.2
    exact ⟨e, f, he, hf, removals_apart hs ht hst he hf⟩
  · intro spans hsolid hspans
    obtain ⟨edits, hedits⟩ := exists_removes fun s hs => fits_of_isSolidAt (hsolid s hs)
    obtain ⟨text, htext, rfl⟩ := hedits.exists_text hsolid hspans
    refine ⟨edits, _, hedits, htext, ?_⟩
    apply Text.solids_without_congr
    intro c p q hc hb
    exact hedits.covers hc hb

/-- A member between blank lines, and two members on one line. -/
def crowdedSource : Text :=
  "class A \x7b\n\n  a() \x7b\x7d\n\n  b() \x7b\x7d c() \x7b\x7d\n\x7d\n".toList

def crowdedSpans : List Span := [.onLine 3 11 13 19, .onLine 5 21 23 29, .onLine 5 21 30 36]

theorem crowded_members_are_removed_together :
    (∃ e, removalEdit? crowdedSource (.onLine 3 11 13 19) = some e ∧ e.start ≤ 13 ∧ 19 ≤ e.stop ∧
      Edit.Covers crowdedSource e) ∧
    (∃ e f, removalEdit? crowdedSource (.onLine 5 21 23 29) = some e ∧
      removalEdit? crowdedSource (.onLine 5 21 30 36) = some f ∧ Edit.Apart e f) ∧
    ∃ edits text, Removes crowdedSource crowdedSpans edits ∧
      Edit.applyAll crowdedSource edits = .ok text ∧
      solids text = "classA\x7b\x7d".toList := by
  obtain ⟨hone, htwo, hall⟩ := a_removal_takes_blanks_besides_and_keeps_clear crowdedSource
  have hsolid : ∀ s ∈ crowdedSpans, isSolidAt crowdedSource s.start s.stop = true := by
    decide +kernel
  refine ⟨?_, ?_, ?_⟩
  · obtain ⟨e, he, _, hcovers, hstart, hstop, _⟩ := hone (.onLine 3 11 13 19) (by decide)
      (by decide +kernel) (by decide +kernel)
    exact ⟨e, he, hstart, hstop, hcovers⟩
  · exact htwo (.onLine 5 21 23 29) (.onLine 5 21 30 36) (hsolid _ (by decide))
      (hsolid _ (by decide)) (by decide)
  · obtain ⟨edits, text, hedits, htext, hrest⟩ := hall crowdedSpans hsolid (by decide)
    refine ⟨edits, text, hedits, htext, ?_⟩
    rw [hrest]
    decide +kernel

end Uplift.Revise
