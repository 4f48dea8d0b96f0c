-- Findings: where a deprecated API is used, and what a run over files found.
import Uplift.Catalog.Rule
import Uplift.Error
import Uplift.Snapshot

namespace Uplift

/-- One use of a deprecated API. -/
structure Issue where
  api : String
  file : String
  line : Nat
  column : Nat
  message : String
  category : Category
  deprecatedIn : String
  removedIn : Option String
  alternative : String
  severity : Severity
deriving DecidableEq

namespace Issue

/-- A finding at `span` under `rule`. -/
def ofRule (rule : Rule) (category : Category) (api file : String) (span : Span)
    (message : String) : Issue :=
  { api, file, line := span.line, column := span.column, message, category
    deprecatedIn := rule.deprecatedIn
    removedIn := rule.removedIn
    alternative := rule.alternative
    severity := rule.severity }

end Issue

/-- Findings together with the failures met on the way. -/
structure Findings where
  issues : List Issue := []
  errors : List RunError := []

namespace Findings

def append (a b : Findings) : Findings := ⟨a.issues ++ b.issues, a.errors ++ b.errors⟩

instance : Append Findings := ⟨append⟩

end Findings

/-- How a run over files ended. -/
inductive Outcome where
  | noFilesFound
  | clean
  | issuesFound
deriving DecidableEq

namespace Outcome

def name : Outcome → String
  | noFilesFound => "no-files-found"
  | clean => "clean"
  | issuesFound => "issues-found"

/-- The outcome for a number of files and the issues in them. -/
def of (filesFound : Nat) (issues : List Issue) : Outcome :=
  if filesFound = 0 then noFilesFound else if issues.isEmpty then clean else issuesFound

end Outcome

/-- What a run over files found. -/
structure Detection where
  issues : List Issue := []
  filesFound : Nat := 0
  /-- The files that could be loaded. -/
  filesScanned : Nat := 0
  errors : List RunError := []

namespace Detection

def outcome (d : Detection) : Outcome := .of d.filesFound d.issues

def countIn (d : Detection) (c : Category) : Nat := (d.issues.filter (·.category == c)).length

end Detection

end Uplift
