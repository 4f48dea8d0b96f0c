-- Applying fixes. All edits of a file are computed against one snapshot of its
-- current text, and every file is computed before the first is written. A file
-- that fails is left as it was and leaves the others alone.
import Uplift.Fix.Generate

namespace Uplift

open Revise (Revising)
open State (Props)

/-- State on its way into the constructor of a class. -/
structure PendingState where
  cls : ClassDecl
  memberIndent : Text
  props : Props

/-- The edits gathered for one file so far. -/
structure FileEdits where
  edits : List Edit := []
  states : List PendingState := []
  applied : Nat := 0
  stale : Nat := 0

/-- The new text of one file, if any fix changed it. -/
structure FileRevision where
  contents : Option Text
  applied : Nat
  stale : Nat

/-- A file that could not be changed. -/
structure FileFailure where
  file : String
  error : RunError

/-- What became of a batch of fixes. -/
structure ApplyReport where
  succeeded : List String := []
  failed : List FileFailure := []
  /-- Sure fixes that were written. -/
  applied : Nat := 0
  /-- Sure fixes whose method was not found any more. -/
  skippedStale : Nat := 0
  /-- Fixes that are left to a person. -/
  manualReview : Nat := 0

namespace ApplyReport

def isClean (r : ApplyReport) : Bool := r.failed.isEmpty

end ApplyReport

namespace Fix

/-- Queue `props` for `cls`; later values win, and the first member fixes the indentation. -/
def queueState (source : Text) (states : List PendingState) (cls : ClassDecl) (offset : Nat)
    (props : Props) : Option (List PendingState) :=
  match states with
  | [] => do some [⟨cls, ← Revise.lineIndent? source offset, props⟩]
  | s :: rest =>
    if s.cls.span.start = cls.span.start then
      some ({ s with props := s.props.extend props } :: rest)
    else (queueState source rest cls offset props).map (s :: ·)

/-- The method a fix is about, if its text has not changed. -/
def locate? (tree : Snapshot) (fix : Fix) : Option (ClassDecl × Method) := do
  let (cls, method) ← tree.findMethod? fix.api fix.line
  if method.text = fix.before then some (cls, method) else none

/-- Add the edits of one fix. -/
def addEdits (tree : Snapshot) (work : FileEdits) (fix : Fix) : Option FileEdits :=
  match locate? tree fix with
  | none => some { work with stale := work.stale + 1 }
  | some (cls, method) =>
    match fix.kind with
    | .remove => do
      let edit ← Revise.removalEdit? tree.source method.span
      some { work with edits := work.edits ++ [edit], applied := work.applied + 1 }
    | .rename =>
      let text := Rename.renamedText method (Rename.modernHook method.name)
      let edit : Edit := ⟨method.span.start, method.span.stop, text⟩
      some { work with edits := work.edits ++ [edit], applied := work.applied + 1 }
    | .moveToConstructor =>
      match State.extract? tree method with
      | none => some { work with stale := work.stale + 1 }
      | some props => do
        let states ← queueState tree.source work.states cls method.span.start props
        let edit ← Revise.removalEdit? tree.source method.span
        some { work with
          edits := work.edits ++ [edit]
          states
          applied := work.applied + 1 }
    | .manualReview => some work

/-- The edits that give each class its queued state. -/
def stateEdits (tree : Snapshot) : List PendingState → Revising (List Edit)
  | [] => pure []
  | s :: rest => do
    let edit ← Revise.stateEdit tree s.cls s.props s.memberIndent
    let edits ← stateEdits tree rest
    pure (edit :: edits)

/-- The new text of one file by the fixes that are about it. -/
def reviseTree (tree : Snapshot) (fixes : List Fix) : Revising FileRevision := do
  let work ← Revise.fitting (fixes.foldlM (addEdits tree) {})
  let edits := work.edits ++ (← stateEdits tree work.states)
  if edits.isEmpty then pure ⟨none, work.applied, work.stale⟩
  else do
    let text ← ExceptT.mk (some (Edit.applyAll tree.source edits))
    pure ⟨some text, work.applied, work.stale⟩

/-- A new text that waits to be written. -/
structure PendingFile where
  file : String
  contents : Text
  applied : Nat

/-- Compute the new text of one file: the report after it, and the files that wait. -/
def computeFile {σ : Type} (store : Store σ) (files : σ)
    (so : ApplyReport × List PendingFile) (group : String × List Fix) :
    Option (ApplyReport × List PendingFile) :=
  let (report, pending) := so
  let (file, fixes) := group
  match store.load files file with
  | .error e => some ({ report with failed := report.failed ++ [⟨file, .parse e⟩] }, pending)
  | .ok tree =>
    match reviseTree tree fixes with
    | none => none
    | some (.error e) =>
      some ({ report with failed := report.failed ++ [⟨file, .apply e⟩] }, pending)
    | some (.ok r) =>
      let report := { report with skippedStale := report.skippedStale + r.stale }
      match r.contents with
      | none => some (report, pending)
      | some text => some (report, pending ++ [⟨file, text, r.applied⟩])

/-- Write one file. -/
def writeFile {σ : Type} (store : Store σ) (so : σ × ApplyReport) (p : PendingFile) :
    σ × ApplyReport :=
  let (files, report) := so
  match store.persist files p.file p.contents with
  | (files, none) =>
    (files, { report with
      applied := report.applied + p.applied
      succeeded := report.succeeded ++ [p.file] })
  | (files, some e) =>
    (files, { report with failed := report.failed ++ [⟨p.file, .apply e⟩] })

/-- Apply every sure fix. There is no answer where a snapshot has spans that do not fit its
source. -/
def applyAll {σ : Type} (store : Store σ) (files : σ) (fixes : List Fix) :
    Option (σ × ApplyReport) := do
  let sure := fixes.filter isAutoApplicable
  let start : ApplyReport := { manualReview := fixes.length - sure.length }
  let (report, pending) ←
    (groupByFile Fix.file sure).foldlM (computeFile store files) (start, [])
  some (pending.foldl (writeFile store) (files, report))

end Fix

end Uplift
