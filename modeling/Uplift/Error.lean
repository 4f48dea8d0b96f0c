-- What can go wrong, one cause per constructor. The wording of a cause and the
-- stable code it is filed under are functions of it, so a cause is worded in
-- one place only.

namespace Uplift

/-- Failures while a pattern is expanded into files. -/
inductive ScanError where
  | invalidPattern (pattern reason : String)
  | io (path reason : String)
  | fileTooLarge (path : String) (size limit : Nat)
deriving DecidableEq

/-- Failures while one file is read into a syntax snapshot. -/
inductive ParseError where
  | unsupportedLanguage (extension : String)
  | grammarNotLoaded (language reason : String)
  | noTree (path : String)
  | unreadable (path reason : String)
deriving DecidableEq

/-- Failures while the table of deprecated APIs is loaded. -/
inductive CatalogError where
  | malformed (reason : String)
  | unknownCategory (key : String)
  | missingSection (key : String)
  | unreadable (path reason : String)
deriving DecidableEq

/-- Failures while the configuration is loaded, checked or written. -/
inductive ConfigError where
  | fileNotFound (path : String)
  | malformed (path reason : String)
  | invalid (field reason : String)
deriving DecidableEq

/-- Failures that end the change of one file. -/
inductive ApplyError where
  | overlappingEdits (firstEnd secondStart : Nat)
  | outOfBounds (start stop len : Nat)
  | missingClassBody (line : Nat)
  | unmergeableState (line : Nat)
  | persist (path reason : String)
deriving DecidableEq

/-- Any failure of a run, by the part of the run that it belongs to. -/
inductive RunError where
  | scan (e : ScanError)
  | parse (e : ParseError)
  | catalog (e : CatalogError)
  | config (e : ConfigError)
  | apply (e : ApplyError)
  | scanner (id file reason : String)
deriving DecidableEq

namespace ScanError

def message : ScanError → String
  | invalidPattern p m => s!"Invalid glob pattern '{p}': {m}"
  | io p m => s!"IO error scanning {p}: {m}"
  | fileTooLarge p size limit => s!"File too large: {p} ({size} bytes, max {limit})"

def code : ScanError → String
  | invalidPattern .. => "INVALID_PATTERN"
  | _ => "SCAN_ERROR"

end ScanError

namespace ParseError

def message : ParseError → String
  | unsupportedLanguage ext => s!"Unsupported file extension: {ext}"
  | grammarNotLoaded l m => s!"Grammar could not be loaded for {l}: {m}"
  | noTree p => s!"Tree-sitter produced no tree for {p}"
  | unreadable p m => s!"Could not read {p}: {m}"

def code : ParseError → String
  | unsupportedLanguage .. => "UNSUPPORTED_LANGUAGE"
  | _ => "PARSE_ERROR"

end ParseError

namespace CatalogError

def message : CatalogError → String
  | malformed m => s!"Catalog JSON is malformed: {m}"
  | unknownCategory k => s!"Unknown catalog category: {k}"
  | missingSection k => s!"Catalog has no '{k}' section"
  | unreadable p m => s!"Could not read catalog {p}: {m}"

def code (_ : CatalogError) : String := "CATALOG_ERROR"

end CatalogError

namespace ConfigError

def message : ConfigError → String
  | fileNotFound p => s!"Config file not found: {p}"
  | malformed p m => s!"Config parse error in {p}: {m}"
  | invalid f m => s!"Config validation failed for {f}: {m}"

def code (_ : ConfigError) : String := "CONFIG_ERROR"

end ConfigError

namespace ApplyError

def message : ApplyError → String
  | overlappingEdits a b => s!"Edits overlap at bytes {a} and {b}"
  | outOfBounds a b n => s!"Edit range {a}..{b} is outside a {n}-byte source"
  | missingClassBody l => s!"Class owning line {l} has no body to edit"
  | unmergeableState l =>
    s!"Constructor state at line {l} is not an object literal; merge it by hand"
  | persist p m => s!"Failed to write {p}: {m}"

def code : ApplyError → String
  | overlappingEdits .. | outOfBounds .. => "EDIT_CONFLICT"
  | persist .. => "PERSIST_FAILED"
  | missingClassBody .. | unmergeableState .. => "APPLY_ERROR"

end ApplyError

/-- A message with the code it is filed under in front. -/
def codedMessage (code message : String) : String := s!"[{code}] {message}"

namespace RunError

def message : RunError → String
  | scan e => "Scan error: " ++ e.message
  | parse e => "Parse error: " ++ e.message
  | catalog e => "Catalog error: " ++ e.message
  | config e => "Configuration error: " ++ e.message
  | apply e => "Apply error: " ++ e.message
  | scanner id f m => s!"Detector {id} failed on {f}: {m}"

def code : RunError → String
  | scan e => e.code
  | parse e => e.code
  | catalog e => e.code
  | config e => e.code
  | apply e => e.code
  | scanner .. => "PIPELINE_ERROR"

def coded (e : RunError) : String := codedMessage e.code e.message

end RunError

end Uplift
