-- The report for people: issues by category, what the fixes would change, and
-- totals.
import Uplift.Report.Json

namespace Uplift

namespace Confidence

def symbol : Confidence → String
  | high => "✓"
  | medium => "⚠"
  | low => "✗"

/-- The terminal's code for the colour of a level: green, yellow and red. -/
def colour : Confidence → String
  | high => "\x1b[32m"
  | medium => "\x1b[33m"
  | low => "\x1b[31m"

def shout : Confidence → String
  | high => "HIGH"
  | medium => "MEDIUM"
  | low => "LOW"

end Confidence

namespace Report

/-- A line across the page. -/
def rule : String := String.ofList (List.replicate 70 '=')

/-- `text` in the colour of `c`, where colour is wanted. -/
def coloured (useColour : Bool) (c : Confidence) (text : String) : String :=
  if useColour then c.colour ++ text ++ "\x1b[0m" else text

def errorLines (errors : List String) : String :=
  if errors.isEmpty then ""
  else
    s!"\n{errors.length} file(s) could not be fully scanned:\n" ++
      String.join (errors.map fun e => s!"  {e}\n")

def issueLines (i : Issue) : String :=
  s!"  {Path.shortName i.file}:{i.line} - {i.api}\n     {i.message}\n" ++
  s!"     Use instead: {i.alternative}\n"

def categoryLines (group : Category × List Issue) : String :=
  s!"\n{group.1.name} ({group.2.length} issues):\n" ++ String.join (group.2.map issueLines)

def fixLines (useColour : Bool) (f : Fix) : String :=
  let head :=
    s!"{f.confidence.symbol} {Path.shortName f.file}:{f.line} [{f.confidence.shout}]"
  "\n" ++ coloured useColour f.confidence head ++
    s!"\n   Deprecated: {f.api}\n   Action: {f.kind.name} ({f.description})\n   Before:\n" ++
    String.ofList f.before ++ "\n   After:\n" ++ String.ofList f.after ++ "\n"

def fixSection (useColour : Bool) (s : RunSummary) : String :=
  if s.fixes.isEmpty then "\nNo automatic fixes available; all issues require manual review.\n"
  else
    let n := s.counts
    s!"\nFix statistics:\n   High confidence: {n.high}\n   Medium confidence: {n.medium}\n" ++
      s!"   Low confidence: {n.low}\n\nPreview of changes:\n{rule}\n" ++
      String.join (s.fixes.map (fixLines useColour)) ++ s!"\n{rule}\n"

def applySection : Option ApplySummary → String
  | none => "\nDry run - no changes applied\n"
  | some a =>
    s!"\nApplied {a.applied} fix(es) to {a.succeeded.length} file(s)\n" ++
      (if a.skippedStale > 0 then
        s!"  {a.skippedStale} fix(es) skipped: the code changed since detection\n"
      else "") ++
      String.join (a.failed.map fun (file, error) => s!"  FAILED {Path.shortName file}: {error}\n")

def totals (s : RunSummary) : String :=
  s!"\nSummary:\n   Total issues: {s.issues.length}\n   Fixes generated: {s.fixes.length}\n" ++
    s!"   Auto-fixable: {s.autoFixable}\n   Need review: {s.needsReview}\n"

/-- The report for a terminal. -/
def console (useColour : Bool) (s : RunSummary) : String :=
  (if s.dryRun then "DRY RUN - no files will be modified\n\n" else "") ++
    match s.outcome with
    | .noFilesFound =>
      s!"No files matched '{s.pattern}'. Check the path or use an absolute pattern.\n"
    | .clean => s!"No issues found in {s.filesScanned} file(s).\n" ++ errorLines s.errors
    | .issuesFound =>
      s!"Found {s.issues.length} issue(s) in {s.filesScanned} file(s)\n" ++
        String.join ((issuesByCategory s.issues).map categoryLines) ++ s!"\n{rule}\n" ++
        fixSection useColour s ++ applySection s.apply ++ errorLines s.errors ++ totals s

/-- The forms a report can take. -/
def formats : List String := ["console", "json"]

/-- The report in a form, if there is such a form. -/
def generate? (format : String) (useColour : Bool) (s : RunSummary) : Option String :=
  if format == "console" then some (console useColour s)
  else if format == "json" then some s.toJson.renderPretty
  else none

end Report

end Uplift
