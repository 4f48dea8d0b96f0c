-- Issues and fixes as JSON, and the whole run as a JSON report.
import Uplift.Json.Decode
import Uplift.Json.Printer
import Uplift.Report.Summary

namespace Uplift

open Json (field? optField? text? nat32?)

namespace Issue

def toJson (i : Issue) : Json :=
  .obj <| [("api", .str i.api), ("file", .str i.file), ("line", .ofNat i.line),
      ("column", .ofNat i.column), ("message", .str i.message),
      ("category", .str i.category.name), ("deprecatedIn", .str i.deprecatedIn)] ++
    (i.removedIn.map fun s => ("removedIn", Json.str s)).toList ++
    [("alternative", .str i.alternative), ("severity", .str i.severity.name)]

def ofJson? (j : Json) : Option Issue := do
  some {
    api := ← field? j "api" Json.str?
    file := ← field? j "file" Json.str?
    line := ← field? j "line" nat32?
    column := ← field? j "column" nat32?
    message := ← field? j "message" Json.str?
    category := ← field? j "category" (Json.named? Category.ofName?)
    deprecatedIn := ← field? j "deprecatedIn" Json.str?
    removedIn := ← optField? j "removedIn" Json.str?
    alternative := ← field? j "alternative" Json.str?
    severity := ← field? j "severity" (Json.named? Severity.ofName?) }

end Issue

namespace Fix

def toJson (f : Fix) : Json :=
  .obj <| [("api", .str f.api), ("file", .str f.file), ("line", .ofNat f.line),
      ("category", .str f.category.name), ("pattern", .str f.pattern.name),
      ("description", .str f.description), ("before", .ofText f.before),
      ("after", .ofText f.after), ("type", .str f.kind.name),
      ("confidence", .str f.confidence.name)] ++
    (f.urgency.map fun u => ("urgency", Json.str u.name)).toList

def ofJson? (j : Json) : Option Fix := do
  some {
    api := ← field? j "api" Json.str?
    file := ← field? j "file" Json.str?
    line := ← field? j "line" nat32?
    category := ← field? j "category" (Json.named? Category.ofName?)
    pattern := ← field? j "pattern" (Json.named? Lifecycle.Pattern.ofName?)
    description := ← field? j "description" Json.str?
    before := ← field? j "before" text?
    after := ← field? j "after" text?
    kind := ← field? j "type" (Json.named? FixKind.ofName?)
    confidence := ← field? j "confidence" (Json.named? Confidence.ofName?)
    urgency := ← optField? j "urgency" (Json.named? Urgency.ofName?) }

end Fix

namespace FixCounts

def toJson (n : FixCounts) : Json :=
  .obj [("high", .ofNat n.high), ("medium", .ofNat n.medium), ("low", .ofNat n.low)]

end FixCounts

namespace ApplySummary

def toJson (a : ApplySummary) : Json :=
  .obj [("succeeded", .arr (a.succeeded.map .str)),
    ("failed", .arr (a.failed.map fun (file, error) =>
      .obj [("file", .str file), ("error", .str error)])),
    ("applied", .ofNat a.applied), ("skippedStale", .ofNat a.skippedStale),
    ("manualReview", .ofNat a.manualReview)]

end ApplySummary

namespace RunSummary

def toJson (s : RunSummary) : Json :=
  .obj <| [("pattern", .str s.pattern), ("dryRun", .bool s.dryRun),
      ("outcome", .str s.outcome.name), ("filesFound", .ofNat s.filesFound),
      ("filesScanned", .ofNat s.filesScanned), ("issues", .arr (s.issues.map Issue.toJson)),
      ("fixes", .arr (s.fixes.map Fix.toJson)), ("fixSummary", s.counts.toJson),
      ("minConfidence", .str s.minConfidence.name)] ++
    (s.apply.map fun a => ("apply", a.toJson)).toList ++
    [("errors", .arr (s.errors.map .str))]

end RunSummary

end Uplift
