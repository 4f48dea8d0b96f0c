-- A run over files finds what each scanner finds in each file by itself. A
-- file that cannot be loaded and a scanner that breaks down leave an error in
-- their place, and nothing that others find depends on them.
import Mathlib.Data.List.Basic
import Uplift.Catalog.React
import Uplift.Proofs.Detect.Findings
import Uplift.Proofs.Snapshot.Spans
import Uplift.Store.Memory

namespace Uplift

/-! ## One file -/

namespace Scanner

/-- What the scanner gives for a file, unless it breaks down. -/
def output? (s : Scanner) (catalog : Catalog) (tree : Snapshot) : Option (List Issue) :=
  (s.scan tree catalog).toOption

/-- The error of a scanner that breaks down on a file. -/
def breakdown? (s : Scanner) (catalog : Catalog) (tree : Snapshot) : Option RunError :=
  match s.scan tree catalog with
  | .ok _ => none
  | .error reason => some (.scanner s.id tree.path (reason.getD "scanner panicked"))

theorem run_issues (s : Scanner) (catalog : Catalog) (tree : Snapshot) :
    (s.run tree catalog).issues = (s.output? catalog tree).getD [] := by
  unfold run output?
  cases s.scan tree catalog <;> rfl

theorem run_errors (s : Scanner) (catalog : Catalog) (tree : Snapshot) :
    (s.run tree catalog).errors = (s.breakdown? catalog tree).toList := by
  unfold run breakdown?
  cases s.scan tree catalog <;> rfl

end Scanner

/-- The outputs of the scanners that do not break down on a file, one after the other. -/
def outputs (scanners : List Scanner) (catalog : Catalog) (tree : Snapshot) : List Issue :=
  (scanners.filterMap (·.output? catalog tree)).flatten

theorem detectTree_eq (scanners : List Scanner) (catalog : Catalog) (tree : Snapshot) :
    detectTree scanners catalog tree =
      ⟨outputs scanners catalog tree, scanners.filterMap (·.breakdown? catalog tree)⟩ := by
  have hissues : (detectTree scanners catalog tree).issues = outputs scanners catalog tree := by
    rw [detectTree_issues, outputs]
    induction scanners with
    | nil => rfl
    | cons s rest ih =>
      rw [List.flatMap_cons, ih, List.filterMap_cons, Scanner.run_issues]
      cases s.output? catalog tree <;> rfl
  have herrors : (detectTree scanners catalog tree).errors =
      scanners.filterMap (·.breakdown? catalog tree) := by
    rw [detectTree_errors, List.filterMap_eq_flatMap_toList]
    simp only [Scanner.run_errors]
  rw [← hissues, ← herrors]

/-! ## One file after the other -/

section Run

variable {σ : Type} (store : Store σ) (files : σ) (scanners : List Scanner) (catalog : Catalog)

/-- The files that can be loaded, in order. -/
def loadable (paths : List String) : List Snapshot :=
  paths.filterMap fun path => (store.load files path).toOption

/-- The errors that a file gives: its own if it cannot be loaded, and otherwise one for each
scanner that breaks down on it. -/
def errorsAt (path : String) : List RunError :=
  match store.load files path with
  | .error e => [.parse e]
  | .ok tree => scanners.filterMap (·.breakdown? catalog tree)

/-- What a run over `paths` found is what each scanner finds in each file by itself; `skipped`
are the entries that were passed over. -/
structure SumsUp (paths : List String) (skipped : List ScanError) (d : Detection) : Prop where
  issues : d.issues = (loadable store files paths).flatMap (outputs scanners catalog)
  filesFound : d.filesFound = paths.length
  filesScanned : d.filesScanned = (loadable store files paths).length
  errors : d.errors =
    paths.flatMap (errorsAt store files scanners catalog) ++ skipped.map RunError.scan

theorem loadable_cons_error {path : String} {e : ParseError} (rest : List String)
    (h : store.load files path = .error e) :
    loadable store files (path :: rest) = loadable store files rest := by
  simp [loadable, h, Except.toOption]

theorem loadable_cons_ok {path : String} {tree : Snapshot} (rest : List String)
    (h : store.load files path = .ok tree) :
    loadable store files (path :: rest) = tree :: loadable store files rest := by
  simp [loadable, h, Except.toOption]

theorem foldl_detectFile (paths : List String) (d : Detection) :
    paths.foldl (detectFile store files scanners catalog) d =
      { d with
        issues := d.issues ++ (loadable store files paths).flatMap (outputs scanners catalog)
        filesScanned := d.filesScanned + (loadable store files paths).length
        errors := d.errors ++ paths.flatMap (errorsAt store files scanners catalog) } := by
  induction paths generalizing d with
  | nil => simp [loadable]
  | cons path rest ih =>
    rw [List.foldl_cons, ih, List.flatMap_cons]
    unfold detectFile errorsAt
    cases h : store.load files path with
    | error e => simp [loadable_cons_error store files rest h]
    | ok tree =>
      simp [loadable_cons_ok store files rest h, detectTree_eq, Nat.add_assoc, Nat.add_comm 1]

theorem detectFiles_sumsUp (paths : List String) :
    SumsUp store files scanners catalog paths []
      (detectFiles store files scanners catalog paths) := by
  unfold detectFiles
  rw [foldl_detectFile]
  exact ⟨by simp, rfl, by simp, by simp⟩

theorem detectDiscovered_sumsUp (found : Discovery) :
    SumsUp store files scanners catalog found.files found.skipped
      (detectDiscovered store files scanners catalog found) := by
  have h := detectFiles_sumsUp store files scanners catalog found.files
  unfold detectDiscovered
  refine ⟨h.issues, h.filesFound, h.filesScanned, ?_⟩
  simp [h.errors]

end Run

/-! ## What fails leaves the rest alone -/

theorem loadable_skip {σ : Type} (store : Store σ) (files : σ) (before after : List String)
    {path : String} {e : ParseError} (h : store.load files path = .error e) :
    loadable store files (before ++ path :: after) = loadable store files (before ++ after) := by
  have hpath : ((store.load files path).toOption : Option Snapshot) = none := by rw [h]; rfl
  simp [loadable, List.filterMap_append, hpath]

/-- A scanner adds its own output in its place, and nothing where it breaks down. -/
theorem outputs_insert (before after : List Scanner) (s : Scanner) (catalog : Catalog)
    (tree : Snapshot) :
    outputs (before ++ s :: after) catalog tree =
      match s.scan tree catalog with
      | .ok own => outputs before catalog tree ++ own ++ outputs after catalog tree
      | .error _ => outputs (before ++ after) catalog tree := by
  unfold outputs Scanner.output?
  cases h : s.scan tree catalog <;> simp [List.filterMap_append, h, Except.toOption]

/-- A run over files, given or discovered, sums up what each scanner finds in each file by
itself. So one more file that cannot be loaded changes no issue wherever it stands. One more
scanner adds its own output to the files on which it does not break down and changes no other
issue, so one that always breaks down changes none. -/
theorem a_run_sums_up_its_files_and_leaves_failures_aside {σ : Type} (store : Store σ)
    (files : σ) (catalog : Catalog) :
    (∀ scanners paths, SumsUp store files scanners catalog paths []
      (detectFiles store files scanners catalog paths)) ∧
    (∀ scanners found, SumsUp store files scanners catalog found.files found.skipped
      (detectDiscovered store files scanners catalog found)) ∧
    (∀ scanners before path after e, store.load files path = .error e →
      (detectFiles store files scanners catalog (before ++ path :: after)).issues =
        (detectFiles store files scanners catalog (before ++ after)).issues) ∧
    (∀ before s after paths,
      (detectFiles store files (before ++ s :: after) catalog paths).issues =
        (loadable store files paths).flatMap fun tree =>
          match s.scan tree catalog with
          | .ok own => outputs before catalog tree ++ own ++ outputs after catalog tree
          | .error _ => outputs (before ++ after) catalog tree) ∧
    (∀ before s after paths,
      (∀ tree ∈ loadable store files paths, ∃ reason, s.scan tree catalog = .error reason) →
      (detectFiles store files (before ++ s :: after) catalog paths).issues =
        (detectFiles store files (before ++ after) catalog paths).issues) := by
  refine ⟨fun scanners paths => detectFiles_sumsUp store files scanners catalog paths,
    fun scanners found => detectDiscovered_sumsUp store files scanners catalog found, ?_, ?_, ?_⟩
  · intro scanners before path after e h
    rw [(detectFiles_sumsUp ..).issues, (detectFiles_sumsUp ..).issues,
      loadable_skip store files before after h]
  · intro before s after paths
    rw [(detectFiles_sumsUp ..).issues]
    exact List.flatMap_congr fun tree _ => outputs_insert before after s catalog tree
  · intro before s after paths hbreaks
    rw [(detectFiles_sumsUp ..).issues, (detectFiles_sumsUp ..).issues]
    apply List.flatMap_congr
    intro tree htree
    obtain ⟨reason, h⟩ := hbreaks tree htree
    rw [outputs_insert, h]

/-- The sample alone in memory. -/
def sampleMemory : Memory := ⟨[⟨"A.jsx", Snapshot.sample.source, some Snapshot.sample⟩], []⟩

/-- A scanner that breaks down on every file. -/
def exploding : Scanner := .failing "exploding" (some "malformed tree")

/-- A missing file in front of the sample, and a scanner that breaks down in front of a sound
one. -/
theorem failures_leave_the_sample_alone :
    let missing := ParseError.unreadable "B.jsx" "entity not found"
    let d := detectFiles Memory.store sampleMemory [exploding, .lifecycleMethods] Catalog.react
      ["B.jsx", "A.jsx"]
    Memory.store.load sampleMemory "B.jsx" = .error missing ∧
      (∀ tree ∈ loadable Memory.store sampleMemory ["A.jsx"],
        ∃ reason, exploding.scan tree Catalog.react = .error reason) ∧
      d.issues = Scanner.lifecycleIssues Snapshot.sample Catalog.react ∧
      d.filesFound = 2 ∧ d.filesScanned = 1 ∧
      d.errors = [.parse missing, .scanner "exploding" "A.jsx" "malformed tree"] := by
  intro missing d
  obtain ⟨hsum, _, hfile, _, hscanner⟩ :=
    a_run_sums_up_its_files_and_leaves_failures_aside Memory.store sampleMemory Catalog.react
  have hmissing : Memory.store.load sampleMemory "B.jsx" = .error missing := by
    have hother : Path.same "A.jsx" "B.jsx" = false := by decide +kernel
    simp [Memory.store, Memory.load, Memory.find?, sampleMemory, hother, missing]
  have hsample : Memory.store.load sampleMemory "A.jsx" = .ok Snapshot.sample := by
    have hsame : Path.same "A.jsx" "A.jsx" = true := by simp [Path.same]
    simp [Memory.store, Memory.load, Memory.find?, sampleMemory, hsame, Option.filter_some]
  have hbreaks : ∀ tree ∈ loadable Memory.store sampleMemory ["A.jsx"],
      ∃ reason, exploding.scan tree Catalog.react = .error reason := fun _ _ => ⟨_, rfl⟩
  have hd := hsum [exploding, .lifecycleMethods] ["B.jsx", "A.jsx"]
  refine ⟨hmissing, hbreaks, ?_, hd.filesFound, ?_, ?_⟩
  · calc d.issues = (detectFiles Memory.store sampleMemory [exploding, .lifecycleMethods]
          Catalog.react ["A.jsx"]).issues := hfile _ [] _ _ missing hmissing
      _ = (detectFiles Memory.store sampleMemory [.lifecycleMethods] Catalog.react
          ["A.jsx"]).issues := hscanner [] exploding [.lifecycleMethods] _ hbreaks
      _ = Scanner.lifecycleIssues Snapshot.sample Catalog.react := by
        rw [(hsum _ _).issues, loadable_cons_ok _ _ _ hsample]
        simp [loadable, outputs, Scanner.output?, Scanner.lifecycleMethods, Except.toOption]
  · rw [hd.filesScanned, loadable_cons_error _ _ _ hmissing, loadable_cons_ok _ _ _ hsample]
    rfl
  · rw [hd.errors]
    simp [errorsAt, hmissing, hsample, Scanner.breakdown?, exploding, Scanner.failing,
      Scanner.lifecycleMethods, Snapshot.sample, Snapshot.blank]

end Uplift
