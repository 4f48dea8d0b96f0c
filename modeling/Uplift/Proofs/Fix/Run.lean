-- A batch as a whole. Every file is revised by its own fixes against the
-- contents at the start, then the new texts are written one after the other.
-- The report says what became of each revision and of each write.
import Mathlib.Algebra.Ring.Nat
import Mathlib.Data.List.Basic
import Uplift.Proofs.Fix.Groups
import Uplift.Proofs.Fix.Revision

namespace Uplift.Fix

variable {σ : Type} (store : Store σ) (files : σ)

/-! ## Revising every file -/

/-- The sure fixes of a batch, file by file. -/
def sureGroups (fixes : List Fix) : List (String × List Fix) :=
  groupByFile Fix.file (fixes.filter isAutoApplicable)

/-- Load one file and revise it. -/
def reviseFile (group : String × List Fix) : Option (Except RunError FileRevision) :=
  match store.load files group.1 with
  | .error e => some (.error (.parse e))
  | .ok tree =>
    match reviseTree tree group.2 with
    | none => none
    | some (.error e) => some (.error (.apply e))
    | some (.ok r) => some (.ok r)

/-- What a file has for the report when it cannot be revised. -/
def failure? (group : String × List Fix) : Option FileFailure :=
  match reviseFile store files group with
  | some (.error e) => some ⟨group.1, e⟩
  | _ => none

def revision? (group : String × List Fix) : Option FileRevision :=
  match reviseFile store files group with
  | some (.ok r) => some r
  | _ => none

/-- The new text of a file, if it has one. -/
def waiting? (group : String × List Fix) : Option PendingFile :=
  (revision? store files group).bind fun r => r.contents.map fun text => ⟨group.1, text, r.applied⟩

def staleIn (group : String × List Fix) : Nat := ((revision? store files group).map (·.stale)).getD 0

variable {store files}

theorem failure?_file {group : String × List Fix} {f : FileFailure}
    (h : failure? store files group = some f) : f.file = group.1 := by
  unfold failure? at h
  split at h
  · cases h
    rfl
  · cases h

theorem waiting?_file {group : String × List Fix} {p : PendingFile}
    (h : waiting? store files group = some p) : p.file = group.1 := by
  unfold waiting? at h
  obtain ⟨r, _, h⟩ := Option.bind_eq_some_iff.1 h
  obtain ⟨text, _, rfl⟩ := Option.map_eq_some_iff.1 h
  rfl

/-- What computing one file adds to the report and to the files that wait. -/
theorem computeFile_eq (report : ApplyReport) (pending : List PendingFile)
    (group : String × List Fix) :
    computeFile store files (report, pending) group =
      (reviseFile store files group).map fun _ =>
        ({ report with
            failed := report.failed ++ (failure? store files group).toList
            skippedStale := report.skippedStale + staleIn store files group },
          pending ++ (waiting? store files group).toList) := by
  obtain ⟨file, fixes⟩ := group
  unfold computeFile failure? waiting? staleIn revision? reviseFile
  cases hload : store.load files file with
  | error e => simp [hload]
  | ok tree =>
    cases hr : reviseTree tree fixes with
    | none => simp [hload, hr]
    | some r =>
      cases r with
      | error e => simp [hload, hr]
      | ok revision => cases hc : revision.contents <;> simp [hload, hr, hc]

/-- Computing all files has an answer exactly when every file has one, and adds them up. -/
theorem computeFiles_eq_some {groups : List (String × List Fix)} {report : ApplyReport}
    {pending : List PendingFile} {out : ApplyReport × List PendingFile} :
    groups.foldlM (computeFile store files) (report, pending) = some out ↔
      (∀ g ∈ groups, (reviseFile store files g).isSome = true) ∧
        out = ({ report with
            failed := report.failed ++ groups.filterMap (failure? store files)
            skippedStale := report.skippedStale + (groups.map (staleIn store files)).sum },
          pending ++ groups.filterMap (waiting? store files)) := by
  induction groups generalizing report pending with
  | nil =>
    simp only [List.foldlM_nil, List.filterMap_nil, List.map_nil, List.sum_nil, List.append_nil,
      Nat.add_zero, Option.pure_def, Option.some.injEq]
    exact ⟨fun h => ⟨by simp, h.symm⟩, fun h => h.2.symm⟩
  | cons g rest ih =>
    rw [List.foldlM_cons, computeFile_eq]
    cases hg : reviseFile store files g with
    | none => simp [hg]
    | some r =>
      simp only [Option.map_some, Option.bind_eq_bind, Option.bind_some, ih, List.forall_mem_cons,
        hg, Option.isSome_some, true_and, List.map_cons, List.sum_cons, List.append_assoc,
        Nat.add_assoc, List.filterMap_eq_flatMap_toList, List.flatMap_cons]

/-! ## Writing the new texts -/

variable (store)

/-- The new texts with what each write answers, when they are written in order. -/
def writes (s : σ) : List PendingFile → List (PendingFile × Option ApplyError)
  | [] => []
  | p :: rest =>
    (p, (store.persist s p.file p.contents).2) ::
      writes (store.persist s p.file p.contents).1 rest

def afterWrites (s : σ) (pending : List PendingFile) : σ :=
  pending.foldl (fun s p => (store.persist s p.file p.contents).1) s

/-- The file of a write that was made. -/
def succeeded? : PendingFile × Option ApplyError → Option String
  | (p, none) => some p.file
  | (_, some _) => none

/-- The failure of a write that was refused. -/
def refused? : PendingFile × Option ApplyError → Option FileFailure
  | (_, none) => none
  | (p, some e) => some ⟨p.file, .apply e⟩

/-- The fixes that are written with a file. -/
def appliedBy : PendingFile × Option ApplyError → Nat
  | (p, none) => p.applied
  | (_, some _) => 0

variable {store}

theorem writeFile_eq (s : σ) (report : ApplyReport) (p : PendingFile) :
    writeFile store (s, report) p =
      ((store.persist s p.file p.contents).1, { report with
        succeeded := report.succeeded ++
          (succeeded? (p, (store.persist s p.file p.contents).2)).toList
        failed := report.failed ++ (refused? (p, (store.persist s p.file p.contents).2)).toList
        applied := report.applied + appliedBy (p, (store.persist s p.file p.contents).2) }) := by
  unfold writeFile
  cases hp : store.persist s p.file p.contents with
  | mk s' answer => cases answer <;> simp [hp, succeeded?, refused?, appliedBy]

/-- Writing all files adds up what the single writes answer. -/
theorem writeFiles_eq (s : σ) (report : ApplyReport) (pending : List PendingFile) :
    pending.foldl (writeFile store) (s, report) =
      (afterWrites store s pending, { report with
        succeeded := report.succeeded ++ (writes store s pending).filterMap succeeded?
        failed := report.failed ++ (writes store s pending).filterMap refused?
        applied := report.applied + ((writes store s pending).map appliedBy).sum }) := by
  induction pending generalizing s report with
  | nil => simp [writes, afterWrites]
  | cons p rest ih =>
    rw [List.foldl_cons, writeFile_eq, ih]
    simp only [writes, afterWrites, List.foldl_cons, List.filterMap_eq_flatMap_toList,
      List.flatMap_cons, List.map_cons, List.sum_cons, List.append_assoc, Nat.add_assoc]

/-! ## The whole batch -/

variable (store files)

/-- The files of a batch that wait to be written. -/
def waiting (fixes : List Fix) : List PendingFile :=
  (sureGroups fixes).filterMap (waiting? store files)

/-- The writes of a batch with their answers. -/
def batchWrites (fixes : List Fix) : List (PendingFile × Option ApplyError) :=
  writes store files (waiting store files fixes)

/-- The report of a batch, read off its revisions and its writes. -/
def batchReport (fixes : List Fix) : ApplyReport where
  succeeded := (batchWrites store files fixes).filterMap succeeded?
  failed := (sureGroups fixes).filterMap (failure? store files) ++
    (batchWrites store files fixes).filterMap refused?
  applied := ((batchWrites store files fixes).map appliedBy).sum
  skippedStale := ((sureGroups fixes).map (staleIn store files)).sum
  manualReview := fixes.length - (fixes.filter isAutoApplicable).length

variable {store files}

/-- A batch has an answer exactly when the revision of every file has one. -/
theorem applyAll_eq_some {fixes : List Fix} {result : σ × ApplyReport} :
    applyAll store files fixes = some result ↔
      (∀ g ∈ sureGroups fixes, (reviseFile store files g).isSome = true) ∧
        result = (afterWrites store files (waiting store files fixes),
          batchReport store files fixes) := by
  unfold applyAll
  simp only [Option.bind_eq_bind, Option.bind_eq_some_iff, computeFiles_eq_some, Option.some.injEq]
  constructor
  · rintro ⟨_, ⟨hall, rfl⟩, rfl⟩
    refine ⟨hall, ?_⟩
    simp [writeFiles_eq, batchReport, batchWrites, waiting, sureGroups]
  · rintro ⟨hall, rfl⟩
    refine ⟨_, ⟨hall, rfl⟩, ?_⟩
    simp [writeFiles_eq, batchReport, batchWrites, waiting, sureGroups]

theorem reviseFile_isSome {group : String × List Fix}
    (h : ∀ tree, store.load files group.1 = .ok tree → tree.SpansFit) :
    (reviseFile store files group).isSome = true := by
  unfold reviseFile
  cases hload : store.load files group.1 with
  | error e => rfl
  | ok tree =>
    obtain ⟨_, _, r, _, _, hr, _⟩ := reviseTree_revised (h tree hload) group.2
    cases r <;> simp [hr]

theorem applyAll_isSome_iff {fixes : List Fix} :
    (applyAll store files fixes).isSome = true ↔
      ∀ g ∈ sureGroups fixes, (reviseFile store files g).isSome = true := by
  rw [Option.isSome_iff_exists]
  constructor
  · rintro ⟨result, h⟩
    exact (applyAll_eq_some.1 h).1
  · intro h
    exact ⟨_, applyAll_eq_some.2 ⟨h, rfl⟩⟩

/-- Where the spans of the snapshots fit, a batch has an answer. -/
theorem applyAll_isSome {fixes : List Fix}
    (h : ∀ f ∈ fixes, ∀ tree, store.load files f.file = .ok tree → tree.SpansFit) :
    (applyAll store files fixes).isSome = true := by
  rw [applyAll_isSome_iff]
  intro g hg
  obtain ⟨f, hf, hname⟩ := exists_of_mem_names _ _ (List.mem_map.2 ⟨g, hg, rfl⟩)
  refine reviseFile_isSome fun tree hload => h f (List.mem_of_mem_filter hf) tree ?_
  rw [hname]
  exact hload

end Uplift.Fix
