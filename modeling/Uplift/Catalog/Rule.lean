-- Rules about deprecated APIs, grouped into categories. A catalog is a value:
-- looking something up in it never fails, what is not there is just absent.
import Uplift.Text.Basic

namespace Uplift

/-- The groups of deprecated APIs. -/
inductive Category where
  | lifecycleMethods
  | refs
  | context
  | domMethods
  | rendering
  | factory
  | patterns
  | testing
deriving DecidableEq

namespace Category

def all : List Category :=
  [lifecycleMethods, refs, context, domMethods, rendering, factory, patterns, testing]

/-- The name used on issues and in reports. -/
def name : Category → String
  | lifecycleMethods => "lifecycleMethods"
  | refs => "refs"
  | context => "context"
  | domMethods => "domMethods"
  | rendering => "rendering"
  | factory => "factory"
  | patterns => "patterns"
  | testing => "testing"

def ofName? (s : String) : Option Category := all.find? (·.name == s)

/-- The key of the category's section in a catalog file. -/
def catalogKey : Category → String
  | factory => "factory / legacyComponentCreation"
  | testing => "others"
  | c => c.name

def ofCatalogKey? (s : String) : Option Category := all.find? (·.catalogKey == s)

end Category

inductive Severity where
  | error
  | warning
deriving DecidableEq

namespace Severity

def name : Severity → String
  | error => "error"
  | warning => "warning"

def ofName? (s : String) : Option Severity := [error, warning].find? (·.name == s)

end Severity

/-- One deprecated construct. -/
structure Rule where
  name : String
  deprecatedIn : String
  removedIn : Option String := none
  alternative : String
  severity : Severity
  /-- Only rules about imports have one; it quotes part of a module's name. -/
  pattern : Option String := none
deriving DecidableEq

namespace Rule

/-- The text between the first quote and the next quote of its kind. -/
def quotedPart? (t : Text) : Option Text :=
  match t.dropWhile fun c => c != '\'' && c != '"' with
  | [] => none
  | q :: rest => if rest.contains q then some (rest.takeWhile (· != q)) else none

/-- The part of a module's name that the pattern quotes. -/
def moduleFragment? (r : Rule) : Option String := do
  let part ← quotedPart? (← r.pattern).toList
  if part.isEmpty then none else some (String.ofList part)

/-- The second dotted part of the name: `render` in `ReactDOM.render`. -/
def memberSuffix? (r : Rule) : Option String := do
  let rest := r.name.toList.dropWhile (· != '.')
  let part := rest.tail.takeWhile (· != '.')
  if part.isEmpty then none else some (String.ofList part)

end Rule

/-- The rules of each category, in order. -/
structure Catalog where
  rules : Category → List Rule

namespace Catalog

def empty : Catalog := ⟨fun _ => []⟩

def find? (c : Catalog) (category : Category) (name : String) : Option Rule :=
  (c.rules category).find? (·.name == name)

/-- The first rule of a category. -/
def primary? (c : Catalog) (category : Category) : Option Rule := (c.rules category).head?

def size (c : Catalog) : Nat := Category.all.foldl (fun n k => n + (c.rules k).length) 0

def isEmpty (c : Catalog) : Bool := c.size == 0

end Catalog

end Uplift
