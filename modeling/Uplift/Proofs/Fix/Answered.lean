-- Findings about methods are found again. A scanner walks over all constructs of
-- a file in source order, the generator looks through the classes for a name and
-- a line. What the one reports the other finds, though it may be another method
-- of that name on that line. So every such finding is given a fix, unless the
-- method found for it sets nothing but state that cannot be read off it.
import Mathlib.Data.List.ReduceOption
import Uplift.Catalog.React
import Uplift.Proofs.Detect.Findings
import Uplift.Proofs.Fix.Hooks

namespace Uplift

/-! ## Findings about methods -/

theorem Snapshot.mem_nodes_ofClass {t : Snapshot} {c : ClassDecl} :
    Node.ofClass c ∈ t.nodes ↔ c ∈ t.classes := by
  unfold nodes
  rw [List.mem_mergeSort]
  simp

/-- A method of a class is found by its name and its line, or another one is. -/
theorem Snapshot.exists_findMethod? {t : Snapshot} {c : ClassDecl} {m : Method}
    (hc : c ∈ t.classes) (hm : m ∈ c.methods) :
    ∃ d n, t.findMethod? m.name m.line = some (d, n) := by
  have hown : ((c.methods.find? fun n => n.name == m.name && n.line == m.line).map
      (c, ·)).isSome = true := by
    rw [Option.isSome_map, List.find?_isSome]
    exact ⟨m, hm, by simp⟩
  have hsome : (t.findMethod? m.name m.line).isSome = true := by
    unfold findMethod?
    exact List.findSome?_isSome_iff.2 ⟨c, hc, hown⟩
  obtain ⟨⟨d, n⟩, hdn⟩ := Option.isSome_iff_exists.1 hsome
  exact ⟨d, n, hdn⟩

/-- The issue names a method of a class of the file and the line on which it starts. -/
def Issue.NamesMethod (issue : Issue) (tree : Snapshot) : Prop :=
  ∃ c ∈ tree.classes, ∃ m ∈ c.methods, issue.api = m.name ∧ issue.line = m.line

/-- What is found about the methods of classes: those that the catalog lists, and the methods
that provide the old context. -/
def MethodFinding (catalog : Catalog) (tree : Snapshot) (issue : Issue) : Prop :=
  issue ∈ (Scanner.lifecycleMethods.run tree catalog).issues ∨
    issue ∈ (Scanner.legacyContext.run tree catalog).issues ∧ issue.api = "getChildContext"

namespace Scanner

theorem lifecycleIssues_namesMethod {tree : Snapshot} {catalog : Catalog} {issue : Issue}
    (h : issue ∈ lifecycleIssues tree catalog) : issue.NamesMethod tree := by
  unfold lifecycleIssues at h
  obtain ⟨node, hnode, h⟩ := List.mem_flatMap.1 h
  cases node with
  | ofClass c =>
    obtain ⟨m, hm, h⟩ := List.mem_filterMap.1 h
    obtain ⟨rule, _, rfl⟩ := Option.map_eq_some_iff.1 h
    exact ⟨c, Snapshot.mem_nodes_ofClass.1 hnode, m, hm, rfl, rfl⟩
  | _ => cases h

/-- Of the parts of the old context, only the method has the method's name. -/
theorem contextParts_method {c : ClassDecl} {span : Span}
    (h : ("getChildContext", span) ∈ contextParts c) :
    ∃ m ∈ c.methods, m.name = "getChildContext" ∧ m.span = span := by
  unfold contextParts at h
  rcases List.mem_append.1 h with h | h
  · rw [Option.mem_toList, Option.map_eq_some_iff] at h
    obtain ⟨m, hm, he⟩ := h
    have hname := List.find?_some hm
    exact ⟨m, List.mem_of_find?_eq_some hm, by simpa using hname, (Prod.mk.inj he).2⟩
  · obtain ⟨name, hname, h⟩ := List.mem_filterMap.1 h
    obtain ⟨p, _, he⟩ := Option.map_eq_some_iff.1 h
    rw [(Prod.mk.inj he).1] at hname
    simp at hname

theorem contextIssues_namesMethod {tree : Snapshot} {rule : Rule} {node : Node} {issue : Issue}
    (hnode : node ∈ tree.nodes) (h : issue ∈ contextIssues tree rule node)
    (hapi : issue.api = "getChildContext") : issue.NamesMethod tree := by
  cases node with
  | ofClass c =>
    obtain ⟨⟨api, span⟩, hpart, rfl⟩ := List.mem_map.1 h
    obtain rfl : api = "getChildContext" := hapi
    obtain ⟨m, hm, hname, rfl⟩ := contextParts_method hpart
    exact ⟨c, Snapshot.mem_nodes_ofClass.1 hnode, m, hm, hname.symm, rfl⟩
  | _ => cases h

end Scanner

namespace MethodFinding

variable {catalog : Catalog} {tree : Snapshot} {issue : Issue}

theorem namesMethod (h : MethodFinding catalog tree issue) : issue.NamesMethod tree := by
  rcases h with h | ⟨h, hapi⟩
  · exact Scanner.lifecycleIssues_namesMethod h
  · simp only [Scanner.run, Scanner.legacyContext, Scanner.withPrimary] at h
    cases hp : catalog.primary? .context with
    | none => simp [hp] at h
    | some rule =>
      rw [hp] at h
      obtain ⟨node, hnode, h⟩ := List.mem_flatMap.1 h
      exact Scanner.contextIssues_namesMethod hnode h hapi

theorem mem_detected (h : MethodFinding catalog tree issue) :
    issue ∈ (detectTree Scanner.defaults catalog tree).issues := by
  rw [detectTree_issues]
  apply List.mem_flatMap.2
  rcases h with h | ⟨h, _⟩
  · exact ⟨Scanner.lifecycleMethods, by simp [Scanner.defaults], h⟩
  · exact ⟨Scanner.legacyContext, by simp [Scanner.defaults], h⟩

theorem located (h : MethodFinding catalog tree issue) :
    ∃ c m, tree.findMethod? issue.api issue.line = some (c, m) ∧ c ∈ tree.classes ∧
      m ∈ c.members ∧ m.name = issue.api ∧ m.line = issue.line := by
  obtain ⟨d, hd, n, hn, hname, hline⟩ := h.namesMethod
  obtain ⟨c, m, hcm⟩ := Snapshot.exists_findMethod? hd hn
  rw [← hname, ← hline] at hcm
  obtain ⟨hc, hm, _, hsame⟩ := Snapshot.findMethod?_eq_some hcm
  exact ⟨c, m, hcm, hc, hm, hsame⟩

end MethodFinding

/-! ## Fixes for findings -/

namespace Fix

open Lifecycle (classify)

/-- The issue leads to a method that sets nothing but state, of which none can be read off. -/
def LeadsToUnreadState (tree : Snapshot) (issue : Issue) : Prop :=
  ∃ c m, tree.findMethod? issue.api issue.line = some (c, m) ∧
    classify m.name m.body = .setStateOnly ∧ State.extract? tree m = none

instance (tree : Snapshot) (issue : Issue) : Decidable (LeadsToUnreadState tree issue) :=
  decidable_of_iff (∃ p ∈ tree.findMethod? issue.api issue.line,
    classify p.2.name p.2.body = .setStateOnly ∧ State.extract? tree p.2 = none)
    (by simp [LeadsToUnreadState])

theorem stateMove?_eq_none {tree : Snapshot} {issue : Issue} {c : ClassDecl} {m : Method}
    {pattern : Lifecycle.Pattern} :
    stateMove? tree issue c m pattern = none ↔ State.extract? tree m = none := by
  unfold stateMove?
  cases State.extract? tree m with
  | none => simp
  | some props =>
    simp only [Option.bind_eq_bind, Option.bind_some]
    split <;> simp

/-- A located issue is left without a fix only for state that cannot be read. -/
theorem create_eq_none {tree : Snapshot} {issue : Issue} {c : ClassDecl} {m : Method}
    {taken : List Taken} :
    (create tree issue c m taken).1 = none ↔
      classify m.name m.body = .setStateOnly ∧ State.extract? tree m = none := by
  unfold create
  cases hp : classify m.name m.body with
  | setStateOnly => simp [stateMove?_eq_none]
  | empty | async | complex | simpleLogging | simpleSideEffect | unsafePrefix => simp

/-- What an issue is answered with: nothing if it leads nowhere or to state that cannot be read,
and otherwise a fix of the method it leads to. -/
structure Answer (tree : Snapshot) (issue : Issue) (answer : Option Fix) : Prop where
  about : ∀ fix ∈ answer, Answers tree fix issue
  none_iff : answer = none ↔
    tree.findMethod? issue.api issue.line = none ∨ LeadsToUnreadState tree issue

theorem answer_of_none {tree : Snapshot} {issue : Issue}
    (h : tree.findMethod? issue.api issue.line = none) : Answer tree issue none := by
  refine ⟨?_, ?_⟩
  · intro fix hfix
    cases hfix
  · simp [h]

theorem answer_of_some {tree : Snapshot} {issue : Issue} {c : ClassDecl} {m : Method}
    (h : tree.findMethod? issue.api issue.line = some (c, m)) (taken : List Taken) :
    Answer tree issue (create tree issue c m taken).1 := by
  refine ⟨?_, ?_⟩
  · intro fix hfix
    exact MadeOf.answers ⟨h, hfix⟩
  · rw [create_eq_none]
    unfold LeadsToUnreadState
    constructor
    · exact fun hm => Or.inr ⟨c, m, h, hm⟩
    · rintro (hnone | ⟨d, n, hdn, hn⟩)
      · rw [h] at hnone
        cases hnone
      · rw [h] at hdn
        cases hdn
        exact hn

/-- The fixes of a file are the answers to its issues, in order and without the empty ones. -/
theorem generateFrom_eq_reduceOption (tree : Snapshot) (taken : List Taken)
    (issues : List Issue) :
    ∃ answers, List.Forall₂ (Answer tree) issues answers ∧
      generateFrom tree taken issues = answers.reduceOption := by
  induction issues generalizing taken with
  | nil => exact ⟨[], .nil, rfl⟩
  | cons issue rest ih =>
    unfold generateFrom
    cases hf : tree.findMethod? issue.api issue.line with
    | none =>
      obtain ⟨answers, hanswers, heq⟩ := ih taken
      exact ⟨none :: answers, .cons (answer_of_none hf) hanswers, heq⟩
    | some p =>
      obtain ⟨c, m⟩ := p
      obtain ⟨answers, hanswers, heq⟩ := ih (create tree issue c m taken).2
      refine ⟨(create tree issue c m taken).1 :: answers, .cons (answer_of_some hf taken) hanswers,
        ?_⟩
      dsimp only
      rw [heq]
      cases (create tree issue c m taken).1 <;> rfl

theorem Answer.of_methodFinding {catalog : Catalog} {tree : Snapshot} {issue : Issue}
    {answer : Option Fix} (h : Answer tree issue answer)
    (hfinding : MethodFinding catalog tree issue) :
    answer = none ↔ LeadsToUnreadState tree issue := by
  obtain ⟨c, m, hcm, _⟩ := hfinding.located
  rw [h.none_iff, hcm]
  simp

/-! ## The law -/

/-- Every finding about a method is found again: the file has a method of its name on its line.
Of all that is found in the file, the generator answers each such finding with a fix of that
method, and leaves without a fix exactly those that lead to a method that sets nothing but state
of which none can be read off. -/
theorem every_method_finding_is_answered (tree : Snapshot) (catalog : Catalog) :
    (∀ issue, MethodFinding catalog tree issue →
      issue ∈ (detectTree Scanner.defaults catalog tree).issues ∧
      ∃ c m, tree.findMethod? issue.api issue.line = some (c, m) ∧ c ∈ tree.classes ∧
        m ∈ c.members ∧ m.name = issue.api ∧ m.line = issue.line) ∧
    ∃ answers,
      generateForTree tree (detectTree Scanner.defaults catalog tree).issues =
        answers.reduceOption ∧
      List.Forall₂ (fun issue answer =>
          (∀ fix ∈ answer, Answers tree fix issue) ∧
          (MethodFinding catalog tree issue →
            (answer = none ↔ LeadsToUnreadState tree issue)))
        (detectTree Scanner.defaults catalog tree).issues answers := by
  refine ⟨fun issue h => ⟨h.mem_detected, h.located⟩, ?_⟩
  obtain ⟨answers, hanswers, heq⟩ :=
    generateFrom_eq_reduceOption tree [] (detectTree Scanner.defaults catalog tree).issues
  refine ⟨answers, heq, hanswers.imp ?_⟩
  intro issue answer h
  exact ⟨h.about, h.of_methodFinding⟩

/-- A class with a method that provides the old context, one that sets state that is not
written down, and an empty one. -/
def contextTree : Snapshot :=
  let source := ("class A \x7b\n  getChildContext() \x7b go(); \x7d\n" ++
    "  componentWillMount() \x7b this.setState(f); \x7d\n" ++
    "  componentWillUpdate() \x7b\x7d\n\x7d\n").toList
  let members :=
    [.onLine source 2 10 12 39 "getChildContext" [⟨"go();".toList, .onLine 2 10 32 37⟩],
      .onLine source 3 40 42 84 "componentWillMount"
        [⟨"this.setState(f);".toList, .onLine 3 40 65 82⟩],
      .onLine source 4 85 87 111 "componentWillUpdate" []]
  { Snapshot.blank "A.jsx" .javaScript source with
    classes := [⟨some "A", members, [], ⟨8, 113, 1, 9, 5⟩, ⟨0, 113, 1, 1, 5⟩⟩]
    calls := [⟨"go", [], .onLine 2 10 32 36⟩, ⟨"this.setState", [['f']], .onLine 3 40 65 81⟩] }

theorem contextTree_nodes : contextTree.nodes =
    contextTree.classes.map Node.ofClass ++ contextTree.calls.map Node.ofCall := by
  unfold Snapshot.nodes
  rw [List.mergeSort_of_pairwise (by decide +kernel)]
  simp [contextTree, Snapshot.blank]

/-- A catalog with rules for two of its methods and for the old context. -/
def contextCatalog : Catalog :=
  let rule := fun name => Rule.mk name "16.3.0" none "" .warning none
  ⟨fun
    | .lifecycleMethods => [rule "componentWillUpdate", rule "componentWillMount"]
    | .context => [rule "getChildContext"]
    | _ => []⟩

/-- The findings in its methods, in the order of the scanners. -/
def contextFindings : List Issue :=
  let issue := fun category api span message =>
    Issue.mk api "A.jsx" (Span.line span) span.column message category "16.3.0" none "" .warning
  [issue .lifecycleMethods "componentWillMount" (.onLine 3 40 42 84)
      "Deprecated LifeCycle Api componentWillMount",
    issue .lifecycleMethods "componentWillUpdate" (.onLine 4 85 87 111)
      "Deprecated LifeCycle Api componentWillUpdate",
    issue .context "getChildContext" (.onLine 2 10 12 39)
      "Deprecated: Legacy Context API (getChildContext)"]

theorem contextTree_findings :
    (detectTree Scanner.defaults contextCatalog contextTree).issues = contextFindings ∧
      (Scanner.lifecycleMethods.run contextTree contextCatalog).issues = contextFindings.take 2 ∧
      (Scanner.legacyContext.run contextTree contextCatalog).issues = contextFindings.drop 2 := by
  rw [detectTree_issues]
  simp only [Scanner.defaults, Scanner.run, Scanner.lifecycleMethods, Scanner.stringRefs,
    Scanner.legacyContext, Scanner.findDomNode, Scanner.renderApis, Scanner.createFactory,
    Scanner.defaultProps, Scanner.testUtilsImports, Scanner.withPrimary,
    Scanner.lifecycleIssues, contextTree_nodes, List.flatMap_cons, List.flatMap_nil]
  decide +kernel

theorem contextTree_methodFindings :
    ∀ issue ∈ contextFindings, MethodFinding contextCatalog contextTree issue := by
  intro issue hissue
  obtain ⟨_, hlifecycle, hcontext⟩ := contextTree_findings
  unfold MethodFinding
  rw [hlifecycle, hcontext]
  revert issue
  decide +kernel

/-- Of the three findings, the one about state that is not written down gets no fix. -/
theorem unread_state_is_left_without_a_fix :
    (∀ issue ∈ contextFindings, MethodFinding contextCatalog contextTree issue) ∧
    ∃ answers : List (Option Fix),
      generateForTree contextTree contextFindings = answers.reduceOption ∧
      answers.map Option.isNone = [true, false, false] := by
  obtain ⟨_, answers, heq, hanswers⟩ := every_method_finding_is_answered contextTree contextCatalog
  rw [contextTree_findings.1] at heq hanswers
  refine ⟨contextTree_methodFindings, answers, heq, ?_⟩
  have hunread : contextFindings.map (fun issue => decide (LeadsToUnreadState contextTree issue)) =
      [true, false, false] := by
    decide +kernel
  rw [← hunread, ← List.forall₂_eq_eq_eq, List.forall₂_map_left_iff, List.forall₂_map_right_iff]
  have hall := (List.forall₂_and_left _ _).2 ⟨contextTree_methodFindings, hanswers⟩
  refine (hall.imp ?_).flip
  intro issue answer h
  show answer.isNone = _
  rw [Bool.eq_iff_iff, Option.isNone_iff_eq_none, h.2.2 h.1, decide_eq_true_iff]

end Fix

end Uplift
