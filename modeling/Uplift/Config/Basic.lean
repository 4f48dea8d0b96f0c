-- What a user can set. Every setting may be left open; open settings fall back
-- to a default only when they are used, so that a layer can tell what an
-- earlier layer left open.
import Uplift.Error

namespace Uplift

/-- Settings for finding files. An empty list leaves a setting open. -/
structure ScanSettings where
  maxFileSize : Option Nat := none
  extraIgnore : List String := []
  extensions : List String := []
  respectGitignore : Option Bool := none
deriving DecidableEq

/-- Settings for fixes. -/
structure FixSettings where
  dryRun : Option Bool := none
  minConfidence : Option String := none
deriving DecidableEq

/-- All settings. -/
structure Config where
  scan : ScanSettings := {}
  fix : FixSettings := {}
  catalogPath : Option String := none
deriving DecidableEq

namespace ScanSettings

/-- Files larger than a mebibyte are passed over by default. -/
def fileLimit (s : ScanSettings) : Nat := s.maxFileSize.getD (1024 * 1024)

def defaultExtensions : List String := ["ts", "tsx", "mts", "cts", "js", "jsx", "mjs", "cjs"]

/-- The extensions that count in a plain directory. -/
def sourceExtensions (s : ScanSettings) : List String :=
  if s.extensions.isEmpty then defaultExtensions else s.extensions

def usesGitignore (s : ScanSettings) : Bool := s.respectGitignore.getD true

end ScanSettings

namespace FixSettings

def isDryRun (s : FixSettings) : Bool := s.dryRun.getD false

def confidenceName (s : FixSettings) : String := s.minConfidence.getD "high"

end FixSettings

namespace Config

/-- The names that `fix.min_confidence` accepts. -/
def confidenceNames : List String := ["high", "medium", "low"]

/-- An extension is written without its dot. -/
def isExtension (ext : String) : Bool :=
  match ext.toList with
  | [] => false
  | c :: _ => c != '.'

/-- The first setting with a value that is not allowed. -/
def validate (c : Config) : Except ConfigError Unit :=
  if c.scan.maxFileSize = some 0 then
    .error (.invalid "scan.max_file_size" "must be greater than 0")
  else if c.fix.minConfidence.any (!confidenceNames.contains ·) then
    .error (.invalid "fix.min_confidence"
      ("must be one of " ++ String.intercalate ", " confidenceNames))
  else if c.scan.extensions.any (!isExtension ·) then
    .error (.invalid "scan.extensions" "extensions are written without a leading dot")
  else .ok ()

/-- A checked configuration. -/
def checked (c : Config) : Except ConfigError Config := do
  c.validate
  return c

/-- Lay `upper` over a list: an empty list leaves it as it is. -/
def overList (lower upper : List String) : List String :=
  if upper.isEmpty then lower else upper

/-- Lay `upper` over `lower`: a setting of `upper` counts where it is made. -/
def overlay (lower upper : Config) : Config where
  scan := {
    maxFileSize := upper.scan.maxFileSize <|> lower.scan.maxFileSize
    extraIgnore := overList lower.scan.extraIgnore upper.scan.extraIgnore
    extensions := overList lower.scan.extensions upper.scan.extensions
    respectGitignore := upper.scan.respectGitignore <|> lower.scan.respectGitignore }
  fix := {
    dryRun := upper.fix.dryRun <|> lower.fix.dryRun
    minConfidence := upper.fix.minConfidence <|> lower.fix.minConfidence }
  catalogPath := upper.catalogPath <|> lower.catalogPath

end Config

end Uplift
