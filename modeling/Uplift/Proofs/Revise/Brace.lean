-- Which expressions are taken apart. An argument of an update, and an
-- initializer, is read as an object literal as soon as it opens with a brace;
-- no more is asked. So only whole literals are taken apart exactly when none
-- of these expressions is loose, that is, opens with a brace and goes on behind
-- the brace that closes it, as under a type assertion or in front of an operator.
import Uplift.Proofs.Revise.Initializer
import Uplift.Proofs.State.Whole

namespace Uplift

open Text (trimTerminator)

/-! ## Updates -/

namespace State

/-- The first arguments of the updates that are statements of the method itself. -/
def updateArguments (tree : Snapshot) (m : Method) : List Text :=
  match m.body with
  | none => []
  | some body => (tree.calls.filter fun c =>
      c.callee == setStateCallee && isStatementOf body c).filterMap (·.arguments.head?)

/-- What literals set when they are read and overlaid in order, if it is anything. -/
def overlaid? (literals : List Text) : Option Props :=
  let props := (literals.map parseLiteral).foldl Props.extend Props.empty
  if props.isEmpty then none else some props

theorem filterMap_literalOf? (calls : List Call) :
    calls.filterMap literalOf? =
      ((calls.filterMap (·.arguments.head?)).filter opensLiteral).map parseLiteral := by
  induction calls with
  | nil => rfl
  | cons call calls ih =>
    cases harg : call.arguments.head? with
    | none =>
      have hlit : literalOf? call = none := by simp [literalOf?, harg]
      simp only [List.filterMap_cons, hlit, harg, ih]
    | some arg =>
      cases hopen : opensLiteral arg with
      | true =>
        have hlit : literalOf? call = some (parseLiteral arg) := by simp [literalOf?, harg, hopen]
        simp only [List.filterMap_cons, hlit, harg, ih]
        rw [List.filter_cons_of_pos hopen, List.map_cons]
      | false =>
        have hlit : literalOf? call = none := by simp [literalOf?, harg, hopen]
        simp only [List.filterMap_cons, hlit, harg, ih]
        rw [List.filter_cons_of_neg (by simp [hopen])]

/-- The arguments that open with a brace are read, and no others. -/
theorem extract?_eq_overlaid? (tree : Snapshot) (m : Method) :
    extract? tree m = overlaid? ((updateArguments tree m).filter opensLiteral) := by
  unfold extract? updateArguments
  cases m.body with
  | none => rfl
  | some body =>
    unfold overlaid?
    rw [← filterMap_literalOf?]
    rfl

end State

namespace Revise

open State (Props parseLiteral opensLiteral updateArguments overlaid? IsWhole Loose)

/-! ## Initializers -/

theorem Initializes.opensLiteral_iff {c : ClassDecl} {s : Statement} {right : Text}
    (h : Initializes c s right) : opensLiteral right = true ↔ right.head? = some '{' := by
  obtain ⟨_, _, _, _, _, ⟨_, _, rest, _, _, _, _, rfl⟩, _⟩ := h
  exact State.opensLiteral_trimmed

theorem Initializes.isMergeable_iff {c : ClassDecl} {s : Statement} {right : Text}
    (h : Initializes c s right) : isMergeable c = true ↔ opensLiteral right = true := by
  rw [h.opensLiteral_iff]
  obtain ⟨b, hb, hi⟩ := initializes_iff.1 h
  unfold isMergeable
  rw [hb, Option.bind_some, hi]
  simp

/-- An initializer that opens with a brace is replaced by what it is read as, with the new state
merged in. Any other is refused. -/
theorem Initializes.stateEdit_eq {t : Snapshot} {c : ClassDecl} {s : Statement} {right : Text}
    (h : Initializes c s right) {props : Props} {memberIndent : Text}
    {r : Except ApplyError Edit} (hr : stateEdit t c props memberIndent = some r) :
    (opensLiteral right = true ∧ ∃ indent unit, r = .ok ⟨s.span.start, s.span.stop,
      stateAssignment (props.mergedWithExisting (parseLiteral right)) indent unit⟩) ∨
    (opensLiteral right = false ∧ r = .error (.unmergeableState s.span.line)) := by
  obtain ⟨b, hb, hi⟩ := initializes_iff.1 h
  cases hu : indentUnit? t.source c memberIndent with
  | none =>
    unfold stateEdit at hr
    rw [hu] at hr
    cases hr
  | some unit =>
    rw [stateEdit_of_body hu hb] at hr
    simp only [stateEditIn, hi] at hr
    by_cases hopen : right.head? = some '{'
    · rw [if_pos hopen] at hr
      refine Or.inl ⟨h.opensLiteral_iff.2 hopen, ?_⟩
      cases hl : lineIndent? t.source s.span.start with
      | none =>
        rw [hl] at hr
        cases hr
      | some indent =>
        rw [bind_ok (by rw [hl]; rfl)] at hr
        cases hr
        exact ⟨indent, unit, rfl⟩
    · rw [if_neg hopen] at hr
      cases hr
      refine Or.inr ⟨?_, rfl⟩
      rw [Bool.eq_false_iff, ne_eq, h.opensLiteral_iff]
      exact hopen

/-! ## The law -/

/-- Arguments and initializers are taken apart exactly when they open with a brace, and refused
otherwise. So only whole literals are taken apart exactly when none of them is loose. A loose
expression that ends in no brace is read with its own brace at the front of the first entry. -/
theorem an_opening_brace_is_all_that_is_asked_for (t : Snapshot) (m : Method) (c : ClassDecl) :
    State.extract? t m = overlaid? ((updateArguments t m).filter opensLiteral) ∧
    (∀ s right, Initializes c s right →
      (isMergeable c = true ↔ opensLiteral right = true) ∧
      ∀ props memberIndent r, stateEdit t c props memberIndent = some r →
        (opensLiteral right = true ∧ ∃ indent unit, r = .ok ⟨s.span.start, s.span.stop,
          stateAssignment (props.mergedWithExisting (parseLiteral right)) indent unit⟩) ∨
        (opensLiteral right = false ∧ r = .error (.unmergeableState s.span.line))) ∧
    (((∀ a ∈ (updateArguments t m).filter opensLiteral, IsWhole (trimTerminator a)) ∧
        ∀ s right, Initializes c s right → isMergeable c = true →
          IsWhole (trimTerminator right)) ↔
      (∀ a ∈ updateArguments t m, ¬ Loose a) ∧
        ∀ s right, Initializes c s right → ¬ Loose right) ∧
    (∀ text, Loose text → (trimTerminator text).getLast? ≠ some '}' →
      ∃ e rest, State.splitEntries (State.interior text) = e :: rest ∧
        e.text.head? = some '{') := by
  refine ⟨State.extract?_eq_overlaid? t m, ?_, ?_, ?_⟩
  · intro s right h
    exact ⟨h.isMergeable_iff, fun props memberIndent r hr => h.stateEdit_eq hr⟩
  · constructor
    · rintro ⟨hargs, hinit⟩
      constructor
      · intro a ha hloose
        have hwhole := hargs a (List.mem_filter.2 ⟨ha, hloose.1⟩)
        exact (State.isWhole_iff_not_loose hloose.1).1 hwhole hloose
      · intro s right h hloose
        have hwhole := hinit s right h (h.isMergeable_iff.2 hloose.1)
        exact (State.isWhole_iff_not_loose hloose.1).1 hwhole hloose
    · rintro ⟨hargs, hinit⟩
      constructor
      · intro a ha
        obtain ⟨ha, hopen⟩ := List.mem_filter.1 ha
        exact (State.isWhole_iff_not_loose hopen).2 (hargs a ha)
      · intro s right h hmerge
        exact (State.isWhole_iff_not_loose (h.isMergeable_iff.1 hmerge)).2 (hinit s right h)
  · intro text hloose hend
    rw [State.interior_of_no_end hend]
    exact State.splitEntries_of_brace (State.opensLiteral_iff.1 hloose.1)

/-- An initializer with a type assertion. -/
def assertedStatement : Statement :=
  ⟨"this.state = \x7b a: 1 \x7d as S;".toList, .onLine 2 10 28 55⟩

def assertedSource : Text :=
  ("class A \x7b\n  constructor() \x7b this.state = \x7b a: 1 \x7d as S; \x7d\n" ++
    "  componentWillMount() \x7b this.setState(\x7b b: 2 \x7d as S); \x7d\n\x7d\n").toList

/-- A method that sets its state with a type assertion. -/
def assertedMethod : Method :=
  .onLine assertedSource 3 58 60 114 "componentWillMount"
    [⟨"this.setState(\x7b b: 2 \x7d as S);".toList, .onLine 3 58 83 112⟩]

def assertedClass : ClassDecl :=
  ⟨some "A", [.onLine assertedSource 2 10 12 57 "constructor" [assertedStatement],
    assertedMethod], [], ⟨8, 116, 1, 9, 4⟩, ⟨0, 116, 1, 1, 4⟩⟩

def assertedTree : Snapshot :=
  { Snapshot.blank "A.tsx" .tsx assertedSource with
    classes := [assertedClass]
    calls := [⟨"this.setState", ["\x7b b: 2 \x7d as S".toList], .onLine 3 58 83 111⟩] }

/-- Type assertions are taken apart: they end up as keys, with their braces. -/
theorem type_assertions_are_taken_apart :
    assertedTree.WellFormed ∧
      ¬ ((∀ a ∈ (updateArguments assertedTree assertedMethod).filter opensLiteral,
          IsWhole (trimTerminator a)) ∧
        ∀ s right, Initializes assertedClass s right → isMergeable assertedClass = true →
          IsWhole (trimTerminator right)) ∧
      State.extract? assertedTree assertedMethod =
        some ⟨[⟨"\x7b b: 2 \x7d as S".toList, [], none⟩]⟩ ∧
      (stateEdit assertedTree assertedClass ⟨[⟨['b'], ['2'], none⟩]⟩ [' ', ' ']).run.map
          Except.toOption =
        some (some ⟨28, 55, "this.state = \x7bb: 2, \x7b a: 1 \x7d as S\x7d;".toList⟩) := by
  obtain ⟨_, _, hlaw, _⟩ :=
    an_opening_brace_is_all_that_is_asked_for assertedTree assertedMethod assertedClass
  refine ⟨by decide +kernel, ?_, by decide +kernel, by decide +kernel⟩
  intro hwhole
  have hloose : ∃ a ∈ updateArguments assertedTree assertedMethod, Loose a := by decide +kernel
  obtain ⟨a, ha, hloose⟩ := hloose
  exact (hlaw.1 hwhole).1 a ha hloose

end Revise

end Uplift
