-- Configuration as TOML. The tables `scan`, `fix` and `catalog` hold the
-- settings; unknown names are passed over. A table may also be written as a
-- list of its settings in order.
import Uplift.Config.Basic
import Uplift.Toml.Printer
import Uplift.Toml.Reader

namespace Uplift

namespace Toml.Value

def nat? : Value → Option Nat
  | .int n => if 0 ≤ n then some n.toNat else none
  | _ => none

def bool? : Value → Option Bool
  | .bool b => some b
  | _ => none

def str? : Value → Option String
  | .str s => some s
  | _ => none

def strs? : Value → Option (List String)
  | .list items => items.mapM str?
  | _ => none

end Toml.Value

namespace Config

open Toml (Value Entries)

/-- The settings of a group: by name from a table, by position from a list. A date has no
settings at all. -/
def members? (names : List String) : Value → Option Entries
  | .table _ es => some es
  | .list items => some (names.zip items)
  | .tables items => some (names.zip (items.map (.table .declared)))
  | .date => some []
  | _ => none

/-- A setting that may be left open. -/
def setting? {α : Type} (es : Entries) (name : String) (read : Value → Option α) :
    Option (Option α) :=
  match es.get? name with
  | none => some none
  | some v => (read v).map some

/-- A group of settings that may be left out. -/
def group? (root : Entries) (name : String) (names : List String) : Option Entries :=
  match root.get? name with
  | none => some []
  | some v => members? names v

def scanNames : List String := ["max_file_size", "extra_ignore", "extensions", "respect_gitignore"]

def fixNames : List String := ["dry_run", "min_confidence"]

def catalogNames : List String := ["path"]

def scanOf? (es : Entries) : Option ScanSettings := do
  let maxFileSize ← setting? es "max_file_size" Value.nat?
  let extraIgnore ← setting? es "extra_ignore" Value.strs?
  let extensions ← setting? es "extensions" Value.strs?
  let respectGitignore ← setting? es "respect_gitignore" Value.bool?
  some { maxFileSize, extraIgnore := extraIgnore.getD [], extensions := extensions.getD []
         respectGitignore }

def fixOf? (es : Entries) : Option FixSettings := do
  let dryRun ← setting? es "dry_run" Value.bool?
  let minConfidence ← setting? es "min_confidence" Value.str?
  some { dryRun, minConfidence }

def ofEntries? (root : Entries) : Option Config := do
  let scan ← scanOf? (← group? root "scan" scanNames)
  let fix ← fixOf? (← group? root "fix" fixNames)
  let catalogPath ← setting? (← group? root "catalog" catalogNames) "path" Value.str?
  some { scan, fix, catalogPath }

/-- The settings in a text, not yet checked; `path` names the text in an error. -/
def decode (path : String) (t : Text) : Except ConfigError Config :=
  match (Toml.parse? t).bind ofEntries? with
  | some c => .ok c
  | none => .error (.malformed path "not a configuration in TOML")

/-- Read and check a configuration. -/
def ofToml (t : Text) : Except ConfigError Config := decode "<string>" t >>= checked

/-- The largest size that a document can hold. -/
def maxPrintedSize : Nat := UInt64.size / 2 - 1

def printScan (s : ScanSettings) : Text :=
  Toml.printHeader "scan" ++
    Toml.printPair "max_file_size" (s.maxFileSize.map Toml.printNat) ++
    Toml.printPair "extra_ignore" (some (Toml.printTexts s.extraIgnore)) ++
    Toml.printPair "extensions" (some (Toml.printTexts s.extensions)) ++
    Toml.printPair "respect_gitignore" (s.respectGitignore.map Toml.printBool)

def printFix (s : FixSettings) : Text :=
  Toml.printHeader "fix" ++
    Toml.printPair "dry_run" (s.dryRun.map Toml.printBool) ++
    Toml.printPair "min_confidence" (s.minConfidence.map Toml.printText)

def printCatalog (path : Option String) : Text :=
  Toml.printHeader "catalog" ++ Toml.printPair "path" (path.map Toml.printText)

/-- Write a configuration: the three tables with a blank line between them. -/
def toToml (c : Config) : Except ConfigError Text :=
  if c.scan.maxFileSize.any (maxPrintedSize < ·) then
    .error (.malformed "<serialization>" "max_file_size does not fit a TOML integer")
  else
    .ok (printScan c.scan ++ '\n' :: printFix c.fix ++ '\n' :: printCatalog c.catalogPath)

end Config

end Uplift
