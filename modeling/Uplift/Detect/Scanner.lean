-- The scanners, one for each category of deprecated APIs. A scanner looks at
-- the constructs of one snapshot in source order.
import Uplift.Detect.Issue

namespace Uplift

/-- A scanner breaks down with a reason, or gives the issues of one file in order. -/
structure Scanner where
  id : String
  scan : Snapshot → Catalog → Except (Option String) (List Issue)

namespace Scanner

/-- `part` occurs in the name. -/
def nameMentions (name part : String) : Bool := Text.mentions name.toList part.toList

/-- Methods of classes that the catalog lists by name. -/
def lifecycleIssues (tree : Snapshot) (catalog : Catalog) : List Issue :=
  tree.nodes.flatMap fun
    | .ofClass c => c.methods.filterMap fun m =>
      (catalog.find? .lifecycleMethods m.name).map fun rule =>
        .ofRule rule .lifecycleMethods m.name tree.path m.span
          ("Deprecated LifeCycle Api " ++ m.name)
    | _ => []

/-- A string given to an element's `ref`, or a use of `this.refs`. -/
def refIssue? (tree : Snapshot) (rule : Rule) : Node → Option Issue
  | .ofElement e => do
    let attr ← e.attribute? "ref"
    match attr.value with
    | some (.string s) =>
      some (.ofRule rule .refs "String ref" tree.path attr.span
        ("Deprecated: String ref \"" ++ s ++ "\""))
    | _ => none
  | .ofMember m =>
    if m.object == "this" && m.property == "refs" then
      some (.ofRule rule .refs "this.refs" tree.path m.span "Deprecated: this.refs access")
    else none
  | _ => none

/-- The parts of the old context API that a class uses. -/
def contextParts (c : ClassDecl) : List (String × Span) :=
  ((c.method? "getChildContext").map fun m => ("getChildContext", m.span)).toList ++
    ["childContextTypes", "contextTypes"].filterMap fun name =>
      (c.staticProperty? name).map fun p => (name, p.span)

def contextIssues (tree : Snapshot) (rule : Rule) : Node → List Issue
  | .ofClass c => (contextParts c).map fun (api, span) =>
    .ofRule rule .context api tree.path span ("Deprecated: Legacy Context API (" ++ api ++ ")")
  | _ => []

def findDomNodeIssue? (tree : Snapshot) (rule : Rule) : Node → Option Issue
  | .ofCall c =>
    if nameMentions c.callee "findDOMNode" then
      some (.ofRule rule .domMethods "findDOMNode" tree.path c.span
        "Deprecated: ReactDOM.findDOMNode()")
    else none
  | _ => none

/-- Each rule that names a member of `ReactDOM`, against each call. -/
def renderIssues (tree : Snapshot) (rules : List Rule) : Node → List Issue
  | .ofCall c => rules.filterMap fun rule => do
    let suffix ← rule.memberSuffix?
    if nameMentions c.callee ("ReactDOM." ++ suffix) then
      some (.ofRule rule .rendering rule.name tree.path c.span ("Deprecated: " ++ rule.name))
    else none
  | _ => []

/-- The check is off unless the catalog has the rule. -/
def factoryIssue? (tree : Snapshot) (catalog : Catalog) : Node → Option Issue
  | .ofCall c =>
    if nameMentions c.callee "createFactory" then
      (catalog.find? .factory "createFactory").map fun rule =>
        .ofRule rule .factory "React.createFactory" tree.path c.span
          "Deprecated: React.createFactory()"
    else none
  | _ => none

/-- The name before the first dot. -/
def ownerOf (left : String) : String := String.ofList (left.toList.takeWhile (· != '.'))

/-- Default props assigned to what no class of this file is called. -/
def defaultPropsIssue? (tree : Snapshot) (rule : Rule) : Node → Option Issue
  | .ofAssignment a =>
    if a.operator == "=" && nameMentions a.left ".defaultProps" &&
        (tree.classNamed? (ownerOf a.left)).isNone then
      some (.ofRule rule .patterns "defaultProps on function component" tree.path a.span
        ("Deprecated: " ++ ownerOf a.left ++ ".defaultProps on function component"))
    else none
  | _ => none

/-- Each rule that quotes a module, against each import. -/
def importIssues (tree : Snapshot) (rules : List Rule) : Node → List Issue
  | .ofImport i => rules.filterMap fun rule => do
    let fragment ← rule.moduleFragment?
    if nameMentions i.specifier fragment then
      some (.ofRule rule .testing rule.name tree.path i.span ("Deprecated import: " ++ rule.name))
    else none
  | _ => []

/-- A scanner that runs only if its category has a first rule. -/
def withPrimary (category : Category) (f : Snapshot → Rule → List Issue) :
    Snapshot → Catalog → Except (Option String) (List Issue) :=
  fun tree catalog => .ok (match catalog.primary? category with
    | some rule => f tree rule
    | none => [])

def lifecycleMethods : Scanner :=
  ⟨"lifecycle-methods", fun tree catalog => .ok (lifecycleIssues tree catalog)⟩

def stringRefs : Scanner :=
  ⟨"string-refs", withPrimary .refs fun tree rule => tree.nodes.filterMap (refIssue? tree rule)⟩

def legacyContext : Scanner :=
  ⟨"legacy-context",
    withPrimary .context fun tree rule => tree.nodes.flatMap (contextIssues tree rule)⟩

def findDomNode : Scanner :=
  ⟨"find-dom-node",
    withPrimary .domMethods fun tree rule => tree.nodes.filterMap (findDomNodeIssue? tree rule)⟩

def renderApis : Scanner :=
  ⟨"render-apis", fun tree catalog =>
    .ok (tree.nodes.flatMap (renderIssues tree (catalog.rules .rendering)))⟩

def createFactory : Scanner :=
  ⟨"create-factory", fun tree catalog =>
    .ok (tree.nodes.filterMap (factoryIssue? tree catalog))⟩

def defaultProps : Scanner :=
  ⟨"default-props-on-functions",
    withPrimary .patterns fun tree rule => tree.nodes.filterMap (defaultPropsIssue? tree rule)⟩

def testUtilsImports : Scanner :=
  ⟨"test-utils-imports", fun tree catalog =>
    .ok (tree.nodes.flatMap (importIssues tree (catalog.rules .testing)))⟩

/-- A scanner that always breaks down. -/
def failing (id : String) (reason : Option String) : Scanner := ⟨id, fun _ _ => .error reason⟩

/-- All scanners, in the order in which they run. -/
def defaults : List Scanner :=
  [lifecycleMethods, stringRefs, legacyContext, findDomNode, renderApis, createFactory,
    defaultProps, testUtilsImports]

/-- What one scanner adds: its issues, or the fact that it broke down. -/
def run (s : Scanner) (tree : Snapshot) (catalog : Catalog) : Findings :=
  match s.scan tree catalog with
  | .ok issues => ⟨issues, []⟩
  | .error reason => ⟨[], [.scanner s.id tree.path (reason.getD "scanner panicked")]⟩

end Scanner

end Uplift
