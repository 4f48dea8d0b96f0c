-- A configuration survives being written down: whatever its strings hold, the
-- document is read back as the same configuration, with the same settings open.
import Uplift.Config.Toml
import Uplift.Proofs.Config.Layering
import Uplift.Proofs.Toml.Document

namespace Uplift

open Toml (Value Entries Section Lines)

/-! ## The tables of a configuration -/

theorem Toml.Value.strs?_list (ss : List String) : strs? (.list (ss.map .str)) = some ss := by
  rw [strs?, List.mapM_map]
  induction ss with
  | nil => rfl
  | cons s ss ih => simp_all [str?]

def ScanSettings.entries (s : ScanSettings) : Entries :=
  .optional "max_file_size" (s.maxFileSize.map fun n : Nat => .int n) ++
    .optional "extra_ignore" (some (.list (s.extraIgnore.map .str))) ++
    .optional "extensions" (some (.list (s.extensions.map .str))) ++
    .optional "respect_gitignore" (s.respectGitignore.map .bool)

def FixSettings.entries (s : FixSettings) : Entries :=
  .optional "dry_run" (s.dryRun.map .bool) ++
    .optional "min_confidence" (s.minConfidence.map .str)

namespace Config

def sections (c : Config) : List Section :=
  [⟨"scan", c.scan.entries⟩, ⟨"fix", c.fix.entries⟩,
    ⟨"catalog", .optional "path" (c.catalogPath.map .str)⟩]

theorem scanOf?_entries (s : ScanSettings) : scanOf? s.entries = some s := by
  obtain ⟨maxFileSize, extraIgnore, extensions, respectGitignore⟩ := s
  cases maxFileSize <;> cases respectGitignore <;>
    simp [scanOf?, ScanSettings.entries, Entries.optional, setting?, Entries.get?,
      List.lookup_cons, Value.strs?_list, Value.nat?, Value.bool?]

theorem fixOf?_entries (s : FixSettings) : fixOf? s.entries = some s := by
  obtain ⟨dryRun, minConfidence⟩ := s
  cases dryRun <;> cases minConfidence <;>
    simp [fixOf?, FixSettings.entries, Entries.optional, setting?, Entries.get?,
      List.lookup_cons, Value.bool?, Value.str?]

theorem ofEntries?_sections (c : Config) : ofEntries? (c.sections.map Section.table) = some c := by
  have hscan : group? (c.sections.map Section.table) "scan" scanNames = some c.scan.entries := rfl
  have hfix : group? (c.sections.map Section.table) "fix" fixNames = some c.fix.entries := rfl
  have hcatalog : group? (c.sections.map Section.table) "catalog" catalogNames =
      some (.optional "path" (c.catalogPath.map .str)) := rfl
  have hpath : setting? (.optional "path" (c.catalogPath.map .str)) "path" Value.str? =
      some c.catalogPath := by
    cases c.catalogPath <;> rfl
  simp only [ofEntries?, hscan, hfix, hcatalog, hpath, scanOf?_entries, fixOf?_entries,
    Option.bind_eq_bind, Option.bind_some]

theorem nodup_names (c : Config) : ∀ s ∈ c.sections, s.entries.names.Nodup := by
  obtain ⟨⟨maxFileSize, _, _, respectGitignore⟩, ⟨dryRun, minConfidence⟩, catalogPath⟩ := c
  simp only [sections, List.forall_mem_cons]
  refine ⟨?_, ?_, ?_, by simp⟩
  · cases maxFileSize <;> cases respectGitignore <;>
      simp [ScanSettings.entries, Entries.optional, Entries.names]
  · cases dryRun <;> cases minConfidence <;>
      simp [FixSettings.entries, Entries.optional, Entries.names]
  · cases catalogPath <;> simp [Entries.optional, Entries.names]

/-! ## The text of a configuration -/

theorem lines_scan {s : ScanSettings} (hsize : ∀ n ∈ s.maxFileSize, 0 < n ∧ n ≤ 2 ^ 63 - 1) :
    Lines (printScan s) (Section.statements ⟨"scan", s.entries⟩) := by
  have hheader : Lines (Toml.printHeader "scan") _ := .header rfl
  have hmax : Lines (Toml.printPair "max_file_size" (s.maxFileSize.map Toml.printNat)) _ :=
    .optional rfl fun n hn => Toml.written_nat (hsize n hn).1 (hsize n hn).2
  have hlist (name : String) (hname : Toml.isBare name = true) (ss : List String) :
      Lines (Toml.printPair name (some (Toml.printTexts ss)))
        (Section.pairs (.optional name (some (.list (ss.map .str))))) :=
    .pair hname (Toml.written_texts ss)
  have hrespect :
      Lines (Toml.printPair "respect_gitignore" (s.respectGitignore.map Toml.printBool)) _ :=
    .optional rfl fun b _ => Toml.written_bool b
  have hignore := hlist "extra_ignore" rfl s.extraIgnore
  have hextensions := hlist "extensions" rfl s.extensions
  rw [Section.statements, ScanSettings.entries, Section.pairs_append, Section.pairs_append,
    Section.pairs_append]
  exact (((hheader.append hmax).append hignore).append hextensions).append hrespect

theorem lines_fix (s : FixSettings) :
    Lines (printFix s) (Section.statements ⟨"fix", s.entries⟩) := by
  have hdry : Lines (Toml.printPair "dry_run" (s.dryRun.map Toml.printBool)) _ :=
    .optional rfl fun b _ => Toml.written_bool b
  have hconfidence :
      Lines (Toml.printPair "min_confidence" (s.minConfidence.map Toml.printText)) _ :=
    .optional rfl fun name _ => Toml.written_text name
  rw [Section.statements, FixSettings.entries, Section.pairs_append]
  exact ((Lines.header rfl).append hdry).append hconfidence

theorem lines_catalog (path : Option String) :
    Lines (printCatalog path)
      (Section.statements ⟨"catalog", .optional "path" (path.map .str)⟩) :=
  (Lines.header rfl).append (.optional rfl fun s _ => Toml.written_text s)

/-- The text of a configuration. -/
def document (c : Config) : Text :=
  printScan c.scan ++ '\n' :: printFix c.fix ++ '\n' :: printCatalog c.catalogPath

theorem lines_document {c : Config} (hsize : ∀ n ∈ c.scan.maxFileSize, 0 < n ∧ n ≤ 2 ^ 63 - 1) :
    Lines c.document (c.sections.flatMap Section.statements) := by
  have hparts := ((lines_scan hsize).append (Lines.blank.append (lines_fix c.fix))).append
    (Lines.blank.append (lines_catalog c.catalogPath))
  simpa [document, sections] using hparts

/-- The document of a configuration holds its sections. -/
theorem parse?_document {c : Config}
    (hsize : ∀ n ∈ c.scan.maxFileSize, 0 < n ∧ n ≤ 2 ^ 63 - 1) :
    Toml.parse? c.document = some (c.sections.map Section.table) := by
  rw [(lines_document hsize).parse? (by simp [document, printScan, Toml.printHeader]),
    Toml.build_sections (by simp [sections]) c.nodup_names]

theorem toToml_eq_ok {c : Config} (hsize : ∀ n, c.scan.maxFileSize = some n → n ≤ 2 ^ 63 - 1) :
    c.toToml = .ok c.document := by
  have hmax : maxPrintedSize = 2 ^ 63 - 1 := rfl
  rw [toToml, if_neg, document]
  cases hn : c.scan.maxFileSize with
  | none => simp
  | some n =>
    have hle := hsize n hn
    simp only [Option.any_some, hmax, decide_eq_true_eq]
    omega

theorem maxFileSize_ne_zero {c : Config} (h : c.validate = .ok ()) :
    c.scan.maxFileSize ≠ some 0 := by
  intro hzero
  simp [validate, hzero] at h

/-- Every valid configuration whose limit on sizes fits a number of the format can be written,
and its text is read back as the same configuration. -/
theorem a_valid_configuration_survives_being_written (c : Config) (hvalid : c.validate = .ok ())
    (hsize : ∀ n, c.scan.maxFileSize = some n → n ≤ 2 ^ 63 - 1) :
    ∃ t, c.toToml = .ok t ∧ ofToml t = .ok c := by
  have hlimit : ∀ n ∈ c.scan.maxFileSize, 0 < n ∧ n ≤ 2 ^ 63 - 1 := by
    intro n hn
    refine ⟨Nat.pos_of_ne_zero ?_, hsize n hn⟩
    rintro rfl
    exact maxFileSize_ne_zero hvalid hn
  refine ⟨c.document, toToml_eq_ok hsize, ?_⟩
  have hdecode : decode "<string>" c.document = .ok c := by
    rw [decode, parse?_document hlimit, Option.bind_some, ofEntries?_sections]
  rw [ofToml, hdecode]
  exact Config.checked_eq_ok.2 ⟨hvalid, rfl⟩

/-- A configuration whose strings take every kind of quotes and escapes. -/
def oddStrings : Config where
  scan := {
    maxFileSize := some (2 ^ 63 - 1)
    extraIgnore := ["plain", "a\\b", "it's \"both\"", "it's a\\b", "'''\"\"\"",
      "\r\n\ttail\"\"", "\x00\x7f\ufeff"]
    extensions := ["é"] }
  fix := { minConfidence := some "low" }
  catalogPath := some ""

theorem odd_strings_survive_being_written :
    oddStrings.validate = .ok () ∧
      (∀ n, oddStrings.scan.maxFileSize = some n → n ≤ 2 ^ 63 - 1) ∧
      ∃ t, oddStrings.toToml = .ok t ∧ ofToml t = .ok oddStrings := by
  have hvalid : oddStrings.validate = .ok () := by decide
  have hsize : ∀ n, oddStrings.scan.maxFileSize = some n → n ≤ 2 ^ 63 - 1 := by
    intro n hn
    cases hn
    decide
  exact ⟨hvalid, hsize, a_valid_configuration_survives_being_written oddStrings hvalid hsize⟩

end Config

end Uplift
