-- Syntax trees whose nodes are nested. Every node of such a tree covers whole
-- characters, and its children lie side by side inside it. So what stands below
-- a node lies inside it, starts never go back in preorder, and the text of a
-- node is the source under its span.
import Uplift.Proofs.Script.Preorder
import Uplift.Proofs.Snapshot.Spans
import Uplift.Script.Extract

namespace Uplift

/-! ## The source under a span -/

namespace Span

/-- The source under the span is `text`. -/
def Reads (source : Text) (s : Span) (text : Text) : Prop :=
  Text.slice? source s.start s.stop = some text

theorem contains_trans {a b c : Span} (hab : a.contains b = true) (hbc : b.contains c = true) :
    a.contains c = true := by
  rw [contains_iff] at *
  omega

theorem contains_self (s : Span) : s.contains s = true := by
  rw [contains_iff]
  omega

/-- A span that fits the source has a text. -/
theorem Fits.exists_reads {source : Text} {s : Span} (h : s.Fits source) :
    ∃ text, s.Reads source text := by
  obtain ⟨hle, hbegin, hend⟩ := h
  obtain ⟨u, v, hu, hstart⟩ := Text.isBoundary_iff.1 hbegin
  obtain ⟨x, y, rfl, hstop⟩ := Text.isBoundary_iff.1 hend
  obtain ⟨mid, rfl, rfl⟩ := Text.append_of_width_le hu.symm (by omega)
  refine ⟨mid, Text.slice?_eq_some_iff.2 ⟨u, y, by simp, hstart, ?_⟩⟩
  rw [← hstop, ← hstart, Text.width_append]

theorem Reads.fits {source text : Text} {s : Span} (h : s.Reads source text) : s.Fits source :=
  ⟨Text.slice?_le h, Text.slice?_boundary_left h, Text.slice?_boundary_right h⟩

theorem fits_none (source : Text) : none.Fits source :=
  ⟨Nat.le_refl 0, Text.isBoundary_width [] source, Text.isBoundary_width [] source⟩

end Span

namespace Script

/-! ## Nested nodes -/

/-- The node covers whole characters, and its children lie side by side inside it. -/
structure Tree.Laid (source : Text) (t : Tree) : Prop where
  fits : t.span.Fits source
  inside : ∀ c ∈ t.children, t.span.contains c.span = true
  ordered : t.children.Pairwise fun a b => a.span.stop ≤ b.span.start

instance (source : Text) (t : Tree) : Decidable (t.Laid source) :=
  decidable_of_iff (_ ∧ _ ∧ _)
    ⟨fun ⟨h1, h2, h3⟩ => ⟨h1, h2, h3⟩, fun ⟨h1, h2, h3⟩ => ⟨h1, h2, h3⟩⟩

/-- Every node is so. -/
def Tree.Nested (source : Text) (root : Tree) : Prop :=
  ∀ place t, root.at? place = some t → t.Laid source

theorem Tree.nested_iff {source : Text} {root : Tree} :
    root.Nested source ↔ ∀ place ∈ root.places, (root.visitAt place).2.Laid source := by
  unfold Tree.Nested
  constructor
  · intro h place hplace
    obtain ⟨t, ht⟩ := Tree.mem_places.1 hplace
    rw [Tree.visitAt_eq ht]
    exact h place t ht
  · intro h place t ht
    have hlaid := h place (Tree.mem_places.2 ⟨t, ht⟩)
    rwa [Tree.visitAt_eq ht] at hlaid

instance (source : Text) (root : Tree) : Decidable (root.Nested source) :=
  decidable_of_iff _ Tree.nested_iff.symm

namespace Tree.Nested

variable {source : Text} {t c : Tree}

theorem laid (h : t.Nested source) : t.Laid source := h [] t rfl

theorem child (h : t.Nested source) (hc : c ∈ t.children) : c.Nested source := by
  obtain ⟨i, hi⟩ := List.mem_iff_getElem?.1 hc
  intro place u hu
  exact h (i :: place) u (Tree.at?_cons.2 ⟨c, hi, hu⟩)

/-- What holds of nested trees holds at every place. -/
theorem at_place (h : t.Nested source) {place : Tree.Place} {u : Tree} (hu : t.at? place = some u) :
    u.Nested source := by
  induction place generalizing t with
  | nil =>
    cases hu
    exact h
  | cons i place ih =>
    obtain ⟨c, hc, hu⟩ := Tree.at?_cons.1 hu
    exact ih (h.child (List.mem_of_getElem? hc)) hu

theorem above_place (h : t.Nested source) {place : Tree.Place} {u : Tree}
    (hu : t.above? place = some u) : u.Nested source := by
  unfold Tree.above? at hu
  split at hu
  · cases hu
  · exact h.at_place hu

/-- What stands below a node lies inside it. -/
theorem contains_at (h : t.Nested source) {place : Tree.Place} {u : Tree}
    (hu : t.at? place = some u) : t.span.contains u.span = true := by
  induction place generalizing t with
  | nil =>
    cases hu
    exact Span.contains_self _
  | cons i place ih =>
    obtain ⟨c, hc, hu⟩ := Tree.at?_cons.1 hu
    have hmem := List.mem_of_getElem? hc
    exact Span.contains_trans (h.laid.inside c hmem) (ih (h.child hmem) hu)

/-- A node that comes later in preorder lies inside the earlier one or after it. -/
theorem contains_or_before (h : t.Nested source) {p q : Tree.Place} (hpq : p < q) {a b : Tree}
    (ha : t.at? p = some a) (hb : t.at? q = some b) :
    a.span.contains b.span = true ∨ a.span.stop ≤ b.span.start := by
  induction p generalizing t q with
  | nil =>
    cases ha
    exact Or.inl (h.contains_at hb)
  | cons i p ih =>
    cases q with
    | nil => exact absurd hpq (List.not_lt_nil _)
    | cons j q =>
      obtain ⟨c, hc, ha⟩ := Tree.at?_cons.1 ha
      obtain ⟨d, hd, hb⟩ := Tree.at?_cons.1 hb
      have hcmem := List.mem_of_getElem? hc
      have hdmem := List.mem_of_getElem? hd
      rcases List.cons_lt_cons_iff.1 hpq with hij | ⟨rfl, hrest⟩
      · -- The one lies in a child that ends before the other's child starts.
        have hsides : c.span.stop ≤ d.span.start := by
          obtain ⟨hi, rfl⟩ := List.getElem?_eq_some_iff.1 hc
          obtain ⟨hj, rfl⟩ := List.getElem?_eq_some_iff.1 hd
          exact List.pairwise_iff_getElem.1 h.laid.ordered i j hi hj hij
        have hin := Span.contains_iff.1 ((h.child hcmem).contains_at ha)
        have hout := Span.contains_iff.1 ((h.child hdmem).contains_at hb)
        right
        omega
      · obtain rfl : c = d := Option.some.inj (hc.symm.trans hd)
        exact ih (h.child hcmem) hrest ha hb

theorem start_le (h : t.Nested source) {p q : Tree.Place} (hpq : p < q) {a b : Tree}
    (ha : t.at? p = some a) (hb : t.at? q = some b) : a.span.start ≤ b.span.start := by
  have hfits := (h.at_place ha).laid.fits.1
  rcases h.contains_or_before hpq ha hb with hin | hbefore
  · exact (Span.contains_iff.1 hin).1
  · omega

/-- Of two nodes, one lies inside the other or they share no byte. -/
theorem nested_or_apart (h : t.Nested source) {p q : Tree.Place} {a b : Tree}
    (ha : t.at? p = some a) (hb : t.at? q = some b) :
    a.span.Apart b.span ∨ a.span.contains b.span = true ∨ b.span.contains a.span = true := by
  by_cases hpq : p < q
  · rcases h.contains_or_before hpq ha hb with hin | hbefore
    · exact Or.inr (Or.inl hin)
    · exact Or.inl (Or.inl hbefore)
  · by_cases hqp : q < p
    · rcases h.contains_or_before hqp hb ha with hin | hbefore
      · exact Or.inr (Or.inr hin)
      · exact Or.inl (Or.inr hbefore)
    · obtain rfl : p = q := List.le_antisymm (List.not_lt.1 hqp) (List.not_lt.1 hpq)
      obtain rfl : a = b := Option.some.inj (ha.symm.trans hb)
      exact Or.inr (Or.inl (Span.contains_self _))

/-! ## Texts of nodes -/

/-- The text of a node is the source under it. -/
theorem reads (h : t.Nested source) : t.span.Reads source (textOf source t) := by
  obtain ⟨text, htext⟩ := h.laid.fits.exists_reads
  unfold textOf
  rw [show Text.slice? source t.span.start t.span.stop = some text from htext]
  exact htext

theorem reads_string (h : t.Nested source) : t.span.Reads source (stringOf source t).toList := by
  unfold stringOf
  rw [String.toList_ofList]
  exact h.reads

theorem of_child? (h : t.Nested source) {r : Role} (hc : t.child? r = some c) :
    c.Nested source ∧ t.span.contains c.span = true := by
  have hmem := List.mem_of_find?_eq_some hc
  exact ⟨h.child hmem, h.laid.inside c hmem⟩

theorem of_part (h : t.Nested source) (hc : c ∈ t.parts) :
    c.Nested source ∧ t.span.contains c.span = true := by
  have hmem := List.mem_of_mem_filter (List.mem_of_mem_filter hc)
  exact ⟨h.child hmem, h.laid.inside c hmem⟩

end Tree.Nested

end Script

end Uplift
