-- From issues to fixes. An issue is about the method that still stands on its
-- line under its name; what that method does decides what can be done about
-- it. Nothing is written here.
import Uplift.Detect.Issue
import Uplift.Fix.Basic
import Uplift.Rename.Method
import Uplift.Revise.Constructor
import Uplift.State.Extract
import Uplift.Store
import Uplift.Text.Lower

namespace Uplift

open Lifecycle (Pattern classify)

namespace Fix

/-- A hook of a class, the class being known by where it starts. -/
abbrev Taken := Nat × String

def migrationGuide : String := "https://react.dev/reference/react/Component"

/-- A fix of `issue`, located at `method`. -/
def about (issue : Issue) (method : Method) (pattern : Pattern) (kind : FixKind)
    (confidence : Confidence) (description : String) (after : Text) : Fix :=
  { api := method.name, file := issue.file, line := issue.line, category := issue.category
    pattern, description, before := method.text, after, kind, confidence }

/-- An empty method can go. -/
def removal (issue : Issue) (method : Method) (pattern : Pattern) : Fix :=
  about issue method pattern .remove .high ("Remove empty " ++ method.name)
    ("// Removed empty " ++ method.name).toList

/-- Rename onto the hook that replaces the method, unless the class has that hook or another
fix has taken it. -/
def hookRename (issue : Issue) (cls : ClassDecl) (method : Method) (pattern : Pattern)
    (taken : List Taken) : Fix × List Taken :=
  let target := Rename.modernHook method.name
  let hook := (cls.span.start, target)
  let after := Rename.renamedText method target
  if (cls.method? target).isSome || taken.contains hook then
    (about issue method pattern .manualReview .medium
      s!"{target} already exists; merge {method.name} into it by hand" after, taken)
  else
    (about issue method pattern .rename .high s!"Rename {method.name} to {target}" after,
      taken ++ [hook])

/-- Move the state that a method sets into the constructor. -/
def stateMove? (tree : Snapshot) (issue : Issue) (cls : ClassDecl) (method : Method)
    (pattern : Pattern) : Option Fix := do
  let props ← State.extract? tree method
  let after := Revise.constructorPreview props
  if Revise.isMergeable cls then
    some (about issue method pattern .moveToConstructor .high
      s!"Move state initialization from {method.name} into the constructor" after)
  else
    some (about issue method pattern .manualReview .medium
      s!"Constructor state is not an object literal; move state from {method.name} by hand" after)

/-- A hook whose name already says that it is on its way out. -/
def urgentReview (issue : Issue) (method : Method) (pattern : Pattern) : Fix :=
  { about issue method pattern .manualReview .low
      (method.name ++ " will be removed in a future React version")
      (("// URGENT: Remove " ++ method.name ++
        " - will be removed in future React versions\n").toList ++ method.text) with
    urgency := some .high }

/-- What is too involved is left to a person. -/
def complexReview (issue : Issue) (method : Method) (pattern : Pattern) : Fix :=
  about issue method pattern .manualReview .low
    ("Complex " ++ method.name ++ " requires manual migration")
    (("// MANUAL REVIEW: Complex " ++ method.name ++
      " requires careful migration\n// See: " ++ migrationGuide ++ "#").toList ++
      Text.lower method.name.toList)

/-- The fix of an issue that is located at `method` of `cls`, and the hooks taken after it. -/
def create (tree : Snapshot) (issue : Issue) (cls : ClassDecl) (method : Method)
    (taken : List Taken) : Option Fix × List Taken :=
  let pattern := classify method.name method.body
  match pattern with
  | .empty => (some (removal issue method pattern), taken)
  | .async | .simpleLogging | .simpleSideEffect =>
    let (fix, taken) := hookRename issue cls method pattern taken
    (some fix, taken)
  | .setStateOnly => (stateMove? tree issue cls method pattern, taken)
  | .unsafePrefix => (some (urgentReview issue method pattern), taken)
  | .complex => (some (complexReview issue method pattern), taken)

/-- Fixes for the issues of one file, given the hooks that are taken already. -/
def generateFrom (tree : Snapshot) (taken : List Taken) : List Issue → List Fix
  | [] => []
  | issue :: rest =>
    match tree.findMethod? issue.api issue.line with
    | none => generateFrom tree taken rest
    | some (cls, method) =>
      let (fix, taken) := create tree issue cls method taken
      fix.toList ++ generateFrom tree taken rest

/-- Fixes for the issues of one file. Issues that cannot be located yield nothing. -/
def generateForTree (tree : Snapshot) (issues : List Issue) : List Fix :=
  generateFrom tree [] issues

/-- Fixes for issues in any files, file by file; a file that cannot be loaded adds an error. -/
def generate {σ : Type} (store : Store σ) (files : σ) (issues : List Issue) :
    List Fix × List RunError :=
  (groupByFile Issue.file issues).foldl (fun (fixes, errors) (path, own) =>
    match store.load files path with
    | .error e => (fixes, errors ++ [.parse e])
    | .ok tree => (fixes ++ generateForTree tree own, errors)) ([], [])

end Fix

end Uplift
