-- Loading a catalog from JSON. Loading is all or nothing: every rule of every
-- section must be readable, and every section must be a known one.
import Uplift.Catalog.Rule
import Uplift.Error
import Uplift.Json.Reader

namespace Uplift

namespace Severity

def ofJson? (j : Json) : Option Severity := j.variant?.bind ofName?

end Severity

namespace Rule

/-- An optional text: null counts as absent. -/
def optionalText? : Json → Option (Option String)
  | .null => some none
  | .str s => some (some s)
  | _ => none

/-- A field under one of its names. Giving it under two names is an error. -/
def field? (j : Json) (names : List String) : Option (Option Json) :=
  match names.filterMap j.get? with
  | [] => some none
  | [v] => some (some v)
  | _ => none

def required? (j : Json) (names : List String) : Option Json := do (← field? j names)

def optional? (j : Json) (names : List String) : Option (Option String) := do
  optionalText? ((← field? j names).getD .null)

/-- A rule is an object, or the list of its fields in order, of which the last may be missing. -/
def ofJson? (j : Json) : Option Rule :=
  match j with
  | .obj _ => do
    some {
      name := ← (← required? j ["name"]).str?
      deprecatedIn := ← (← required? j ["deprecatedInVersion", "deprecatedIn"]).str?
      removedIn := ← optional? j ["removedInVersion", "removedIn"]
      alternative := ← (← required? j ["alternative"]).str?
      severity := ← Severity.ofJson? (← required? j ["severity"])
      pattern := ← optional? j ["pattern"] }
  | .arr (name :: deprecated :: removed :: alternative :: severity :: more) => do
    let pattern ← match more with
      | [] => some none
      | [p] => optionalText? p
      | _ => none
    some {
      name := ← name.str?
      deprecatedIn := ← deprecated.str?
      removedIn := ← optionalText? removed
      alternative := ← alternative.str?
      severity := ← Severity.ofJson? severity
      pattern }
  | _ => none

def toJson (r : Rule) : Json :=
  .obj <| [("name", .str r.name), ("deprecatedInVersion", .str r.deprecatedIn)] ++
    (r.removedIn.map fun s => ("removedInVersion", Json.str s)).toList ++
    [("alternative", .str r.alternative), ("severity", .str r.severity.name)] ++
    (r.pattern.map fun s => ("pattern", Json.str s)).toList

end Rule

namespace Catalog

/-- The key of the section that holds the rules. -/
def frameworkKey : String := "react"

def section? (j : Json) : Option (List Rule) := do (← j.arr?).mapM Rule.ofJson?

/-- The first of `keys` in byte order. -/
def least? : List String → Option String
  | [] => none
  | k :: rest =>
    match least? rest with
    | none => some k
    | some l => if l < k then some l else some k

def ofJson (root : Json) : Except CatalogError Catalog :=
  match root.get? frameworkKey with
  | none => .error (.missingSection frameworkKey)
  | some (.obj fields) =>
    match fields.mapM fun (k, v) => (section? v).map (k, ·) with
    | none => .error (.malformed "a section is no list of rules")
    | some sections =>
      match least? ((sections.map (·.1)).filter fun k => (Category.ofCatalogKey? k).isNone) with
      | some k => .error (.unknownCategory k)
      | none => .ok ⟨fun c => ((sections.find? (·.1 == c.catalogKey)).map (·.2)).getD []⟩
  | some _ => .error (.malformed "the section holds no categories")

def ofText (t : Text) : Except CatalogError Catalog :=
  match Json.parse? t with
  | none => .error (.malformed "the text is not JSON")
  | some j => ofJson j

end Catalog

end Uplift
