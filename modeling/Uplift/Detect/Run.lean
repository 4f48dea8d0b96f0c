-- Running scanners over files. What fails is recorded and leaves the rest
-- alone: a file that cannot be loaded adds an error, and so does a scanner
-- that breaks down on a file.
import Uplift.Detect.Scanner
import Uplift.Store

namespace Uplift

/-- What the scanners find in one file, in the order of the scanners. -/
def detectTree (scanners : List Scanner) (catalog : Catalog) (tree : Snapshot) : Findings :=
  scanners.foldl (fun found s => found ++ s.run tree catalog) {}

/-- Add what is found in one more file. -/
def detectFile {σ : Type} (store : Store σ) (files : σ) (scanners : List Scanner)
    (catalog : Catalog) (d : Detection) (path : String) : Detection :=
  match store.load files path with
  | .error e => { d with errors := d.errors ++ [.parse e] }
  | .ok tree =>
    let found := detectTree scanners catalog tree
    { d with
      issues := d.issues ++ found.issues
      filesScanned := d.filesScanned + 1
      errors := d.errors ++ found.errors }

/-- Scan files in order. -/
def detectFiles {σ : Type} (store : Store σ) (files : σ) (scanners : List Scanner)
    (catalog : Catalog) (paths : List String) : Detection :=
  paths.foldl (detectFile store files scanners catalog) { filesFound := paths.length }

/-- What a pattern stands for: its files, and the entries that were passed over. -/
structure Discovery where
  base : String := ""
  files : List String := []
  skipped : List ScanError := []

/-- Scan discovered files; the entries passed over are errors after all others. -/
def detectDiscovered {σ : Type} (store : Store σ) (files : σ) (scanners : List Scanner)
    (catalog : Catalog) (found : Discovery) : Detection :=
  let d := detectFiles store files scanners catalog found.files
  { d with errors := d.errors ++ found.skipped.map .scan }

end Uplift
