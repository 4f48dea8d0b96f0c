-- Snapshots that describe their source. The spans of such a snapshot fit the
-- text, members stand side by side between the braces of their class, and the
-- statements of a constructor between the braces of its body.
import Mathlib.Data.List.Pairwise
import Uplift.Proofs.Text.Places
import Uplift.Snapshot

namespace Uplift

/-! ## Spans -/

namespace Span

/-- The span covers whole characters of `source`. -/
def Fits (source : Text) (s : Span) : Prop :=
  s.start ≤ s.stop ∧ Text.isBoundary source s.start = true ∧ Text.isBoundary source s.stop = true

instance (source : Text) (s : Span) : Decidable (s.Fits source) :=
  inferInstanceAs (Decidable (_ ∧ _))

/-- No byte belongs to both. -/
def Apart (a b : Span) : Prop := a.stop ≤ b.start ∨ b.stop ≤ a.start

instance (a b : Span) : Decidable (a.Apart b) := inferInstanceAs (Decidable (_ ∨ _))

theorem Apart.symm {a b : Span} (h : a.Apart b) : b.Apart a := Or.comm.1 h

/-- The span starts with an opening brace and ends with a closing one. -/
def Braced (source : Text) (s : Span) : Prop :=
  s.start + 2 ≤ s.stop ∧ Text.slice? source s.start (s.start + 1) = some ['{'] ∧
    Text.slice? source (s.stop - 1) s.stop = some ['}']

instance (source : Text) (s : Span) : Decidable (s.Braced source) :=
  inferInstanceAs (Decidable (_ ∧ _))

/-- `inner` lies between the braces of `outer`. -/
def Encloses (outer inner : Span) : Prop :=
  outer.start + 1 ≤ inner.start ∧ inner.stop + 1 ≤ outer.stop

instance (outer inner : Span) : Decidable (outer.Encloses inner) :=
  inferInstanceAs (Decidable (_ ∧ _))

theorem contains_iff {outer inner : Span} :
    outer.contains inner = true ↔ outer.start ≤ inner.start ∧ inner.stop ≤ outer.stop := by
  simp [contains]

/-- What lies in spans that are apart is apart. -/
theorem Apart.of_contains {a b x y : Span} (h : a.Apart b) (hx : a.contains x = true)
    (hy : b.contains y = true) : x.Apart y := by
  rw [contains_iff] at hx hy
  unfold Apart at *
  omega

end Span

/-! ## Spans that fit the source -/

/-- All spans of a method. -/
def Method.spans (m : Method) : List Span :=
  m.span :: m.nameSpan :: m.params.map (·.span) ++
    match m.body with
    | some b => b.span :: b.statements.map (·.span)
    | none => []

/-- All spans of a class. -/
def ClassDecl.spans (c : ClassDecl) : List Span :=
  c.span :: c.bodySpan :: c.properties.map (·.span) ++ c.members.flatMap Method.spans

namespace Snapshot

/-- All spans of a snapshot. -/
def spans (t : Snapshot) : List Span :=
  t.classes.flatMap ClassDecl.spans ++
    t.elements.flatMap (fun e => e.span :: e.attributes.map (·.span)) ++
    t.calls.map (·.span) ++ t.members.map (·.span) ++ t.assignments.map (·.span) ++
    t.imports.map (·.span) ++ t.functions.map (·.span)

/-- Every span covers whole characters of the source. -/
def SpansFit (t : Snapshot) : Prop := ∀ s ∈ t.spans, s.Fits t.source

instance (t : Snapshot) : Decidable t.SpansFit :=
  inferInstanceAs (Decidable (∀ s ∈ t.spans, s.Fits t.source))

theorem SpansFit.of_class {t : Snapshot} {c : ClassDecl} {s : Span} (h : t.SpansFit)
    (hc : c ∈ t.classes) (hs : s ∈ c.spans) : s.Fits t.source := by
  apply h
  unfold spans
  simp only [List.mem_append, List.mem_flatMap]
  exact Or.inl (Or.inl (Or.inl (Or.inl (Or.inl (Or.inl ⟨c, hc, hs⟩)))))

theorem SpansFit.of_member {t : Snapshot} {c : ClassDecl} {m : Method} {s : Span}
    (h : t.SpansFit) (hc : c ∈ t.classes) (hm : m ∈ c.members) (hs : s ∈ m.spans) :
    s.Fits t.source := by
  apply h.of_class hc
  unfold ClassDecl.spans
  exact List.mem_append_right _ (List.mem_flatMap.2 ⟨m, hm, hs⟩)

theorem SpansFit.method {t : Snapshot} {c : ClassDecl} {m : Method} (h : t.SpansFit)
    (hc : c ∈ t.classes) (hm : m ∈ c.members) : m.span.Fits t.source :=
  h.of_member hc hm (by simp [Method.spans])

theorem SpansFit.body {t : Snapshot} {c : ClassDecl} {m : Method} {b : Body} (h : t.SpansFit)
    (hc : c ∈ t.classes) (hm : m ∈ c.members) (hb : m.body = some b) : b.span.Fits t.source :=
  h.of_member hc hm (by simp [Method.spans, hb])

theorem SpansFit.statement {t : Snapshot} {c : ClassDecl} {m : Method} {s : Statement}
    (h : t.SpansFit) (hc : c ∈ t.classes) (hm : m ∈ c.members) (hs : s ∈ m.statements) :
    s.span.Fits t.source := by
  apply h.of_member hc hm
  unfold Method.statements at hs
  cases hb : m.body with
  | none => simp [hb] at hs
  | some b =>
    rw [hb] at hs
    simp only [Method.spans, hb, List.mem_append, List.mem_cons, List.mem_map]
    exact Or.inr (Or.inr ⟨s, hs, rfl⟩)

end Snapshot

/-! ## Members that stand side by side -/

/-- The body of a constructor that covers `owner`. -/
structure Body.WellFormed (source : Text) (owner : Span) (b : Body) : Prop where
  within : owner.contains b.span = true
  braced : b.span.Braced source
  inside : ∀ s ∈ b.statements, b.span.Encloses s.span
  ordered : b.statements.Pairwise fun s t => s.span.stop ≤ t.span.start

instance (source : Text) (owner : Span) (b : Body) : Decidable (b.WellFormed source owner) :=
  decidable_of_iff (_ ∧ _ ∧ _ ∧ _)
    ⟨fun ⟨h1, h2, h3, h4⟩ => ⟨h1, h2, h3, h4⟩, fun ⟨h1, h2, h3, h4⟩ => ⟨h1, h2, h3, h4⟩⟩

structure ClassDecl.WellFormed (source : Text) (c : ClassDecl) : Prop where
  within : c.span.contains c.bodySpan = true
  braced : c.bodySpan.Braced source
  inside : ∀ m ∈ c.members, c.bodySpan.Encloses m.span
  solid : ∀ m ∈ c.members, Text.isSolidAt source m.span.start m.span.stop = true
  apart : c.members.Pairwise fun a b => a.span.Apart b.span
  constructors : ∀ m ∈ c.members, m.isConstructor = true → ∀ b ∈ m.body,
    b.WellFormed source m.span

instance (source : Text) (c : ClassDecl) : Decidable (c.WellFormed source) :=
  decidable_of_iff (_ ∧ _ ∧ _ ∧ _ ∧ _ ∧ _)
    ⟨fun ⟨h1, h2, h3, h4, h5, h6⟩ => ⟨h1, h2, h3, h4, h5, h6⟩,
      fun ⟨h1, h2, h3, h4, h5, h6⟩ => ⟨h1, h2, h3, h4, h5, h6⟩⟩

/-- The snapshot describes its source. Of two classes, one may stand inside the other. -/
structure Snapshot.WellFormed (t : Snapshot) : Prop where
  spans_fit : t.SpansFit
  classes : ∀ c ∈ t.classes, c.WellFormed t.source
  nested_or_apart : ∀ c ∈ t.classes, ∀ d ∈ t.classes,
    c.span.Apart d.span ∨ c.span.contains d.span = true ∨ d.span.contains c.span = true

instance (t : Snapshot) : Decidable t.WellFormed :=
  decidable_of_iff (_ ∧ _ ∧ _) ⟨fun ⟨h1, h2, h3⟩ => ⟨h1, h2, h3⟩, fun ⟨h1, h2, h3⟩ => ⟨h1, h2, h3⟩⟩

/-- A span on one line of an ASCII text; the line starts at `lineStart`. -/
def Span.onLine (line lineStart start stop : Nat) : Span :=
  ⟨start, stop, line, start - lineStart + 1, line⟩

/-- A method on one line, written as its name, `() ` and its body. -/
def Method.onLine (source : Text) (line lineStart start stop : Nat) (name : String)
    (statements : List Statement) : Method :=
  let opening := start + name.length + 3
  { name, isStatic := false, isAsync := false, params := []
    body := some ⟨(Text.slice? source opening stop).getD [],
      .onLine line lineStart opening stop, statements⟩
    nameSpan := .onLine line lineStart start (start + name.length)
    text := (Text.slice? source start stop).getD []
    span := .onLine line lineStart start stop }

/-- A class with a constructor and three methods, each on a line of its own. -/
def Snapshot.sample : Snapshot :=
  let source := ("class A \x7b\n  constructor() \x7b\x7d\n" ++
    "  componentWillMount() \x7b this.setState(\x7b a: 1 \x7d); \x7d\n" ++
    "  componentWillReceiveProps() \x7b\x7d\n" ++
    "  componentWillUpdate() \x7b go(); \x7d\n\x7d\n").toList
  let update : Statement := ⟨"this.setState(\x7b a: 1 \x7d);".toList, .onLine 3 29 54 78⟩
  let effect : Statement := ⟨"go();".toList, .onLine 5 114 140 145⟩
  let members :=
    [.onLine source 2 10 12 28 "constructor" [],
      .onLine source 3 29 31 80 "componentWillMount" [update],
      .onLine source 4 81 83 113 "componentWillReceiveProps" [],
      .onLine source 5 114 116 147 "componentWillUpdate" [effect]]
  { Snapshot.blank "A.jsx" .javaScript source with
    classes := [⟨some "A", members, [], ⟨8, 149, 1, 9, 6⟩, ⟨0, 149, 1, 1, 6⟩⟩]
    calls := [⟨"this.setState", ["\x7b a: 1 \x7d".toList], .onLine 3 29 54 77⟩,
      ⟨"go", [], .onLine 5 114 140 144⟩] }

theorem Snapshot.sample_wellFormed : Snapshot.sample.WellFormed := by decide +kernel

namespace ClassDecl.WellFormed

variable {source : Text} {c : ClassDecl}

/-- Two different members share no byte. -/
theorem members_apart (h : c.WellFormed source) {m n : Method} (hm : m ∈ c.members)
    (hn : n ∈ c.members) (hne : m ≠ n) : m.span.Apart n.span := by
  have : Std.Symm fun a b : Method => a.span.Apart b.span := ⟨fun _ _ => Span.Apart.symm⟩
  exact h.apart.forall hm hn hne

end ClassDecl.WellFormed

/-! ## Where a method is found -/

theorem ClassDecl.mem_members_of_methods {c : ClassDecl} {m : Method} (h : m ∈ c.methods) :
    m ∈ c.members ∧ m.isConstructor = false := by
  unfold methods at h
  simpa using h

theorem ClassDecl.constructorBody?_eq_some {c : ClassDecl} {b : Body}
    (h : c.constructorBody? = some b) :
    ∃ k ∈ c.members, k.isConstructor = true ∧ k.body = some b := by
  unfold constructorBody? at h
  simp only [Option.bind_eq_bind, Option.bind_eq_some_iff] at h
  obtain ⟨k, hk, hb⟩ := h
  unfold constructor? at hk
  have hp := List.find?_some hk
  simp only [Bool.and_eq_true] at hp
  exact ⟨k, List.mem_of_find?_eq_some hk, hp.1, hb⟩

/-- A method that is found belongs to a class of the snapshot, has the name and the line that
were asked for, and is no constructor. -/
theorem Snapshot.findMethod?_eq_some {t : Snapshot} {name : String} {line : Nat}
    {c : ClassDecl} {m : Method} (h : t.findMethod? name line = some (c, m)) :
    c ∈ t.classes ∧ m ∈ c.members ∧ m.isConstructor = false ∧ m.name = name ∧ m.line = line := by
  unfold findMethod? at h
  obtain ⟨d, hd, h⟩ := List.exists_of_findSome?_eq_some h
  obtain ⟨n, hn, he⟩ := Option.map_eq_some_iff.1 h
  obtain ⟨rfl, rfl⟩ := Prod.mk.inj he
  have hp := List.find?_some hn
  simp only [Bool.and_eq_true, beq_iff_eq] at hp
  obtain ⟨hm, hk⟩ := ClassDecl.mem_members_of_methods (List.mem_of_find?_eq_some hn)
  exact ⟨hd, hm, hk, hp.1, hp.2⟩

end Uplift
