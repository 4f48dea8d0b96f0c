-- The summary of one run, which all reports are made from.
import Uplift.Fix.Apply

namespace Uplift

/-- What applying came to, errors in words. -/
structure ApplySummary where
  succeeded : List String
  failed : List (String × String)
  applied : Nat
  skippedStale : Nat
  manualReview : Nat

namespace ApplySummary

def ofReport (r : ApplyReport) : ApplySummary :=
  ⟨r.succeeded, r.failed.map fun f => (f.file, f.error.coded), r.applied, r.skippedStale,
    r.manualReview⟩

end ApplySummary

/-- One run from pattern to result. -/
structure RunSummary where
  pattern : String
  dryRun : Bool
  outcome : Outcome
  filesFound : Nat
  filesScanned : Nat
  issues : List Issue
  fixes : List Fix
  /-- The least confidence that counts as fixable without review. -/
  minConfidence : Confidence
  /-- Absent where nothing was to be applied. -/
  apply : Option ApplySummary
  errors : List String

namespace RunSummary

def ofRun (pattern : String) (dryRun : Bool) (d : Detection) (fixes : List Fix)
    (generationErrors : List RunError) (minConfidence : Confidence)
    (apply : Option ApplyReport) : RunSummary :=
  { pattern, dryRun, outcome := d.outcome, filesFound := d.filesFound
    filesScanned := d.filesScanned, issues := d.issues, fixes, minConfidence
    apply := apply.map .ofReport
    errors := (d.errors ++ generationErrors).map (·.coded) }

def counts (s : RunSummary) : FixCounts := .ofFixes s.fixes

/-- Fixes that need no review. -/
def autoFixable (s : RunSummary) : Nat := s.counts.atLeast s.minConfidence

/-- Issues without such a fix. -/
def needsReview (s : RunSummary) : Nat := s.issues.length - s.autoFixable

end RunSummary

/-- Add an issue to the group of its category. -/
def addToCategory (issue : Issue) : List (Category × List Issue) → List (Category × List Issue)
  | [] => [(issue.category, [issue])]
  | (c, issues) :: rest =>
    if c = issue.category then (c, issues ++ [issue]) :: rest
    else (c, issues) :: addToCategory issue rest

/-- Issues by category, categories in order of first appearance. -/
def issuesByCategory (issues : List Issue) : List (Category × List Issue) :=
  issues.foldl (fun groups i => addToCategory i groups) []

end Uplift
