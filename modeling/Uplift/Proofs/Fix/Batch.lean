-- A batch of fixes that are all about one file. The file is loaded and revised
-- once, and the report of the batch is what became of that revision.
import Uplift.Fix.Apply
import Uplift.Proofs.Fix.FirstSeen

namespace Uplift

/-! ## One group -/

theorem Path.same_iff {a b : String} : Path.same a b = true ↔ Path.steps a = Path.steps b := by
  simp [Path.same]

/-- Items of one file make one group, named as the first of them names the file. -/
theorem groupByFile_of_same {α : Type} {file : α → String} {a : α} {rest : List α}
    (h : ∀ b ∈ rest, Path.same (file a) (file b) = true) :
    groupByFile file (a :: rest) = [(file a, a :: rest)] := by
  have hsame : ∀ b ∈ rest, Path.steps (file a) = Path.steps (file b) :=
    fun b hb => Path.same_iff.1 (h b hb)
  have hown : itemsOf Path.steps file (file a) rest = rest := by
    unfold itemsOf
    rw [List.filter_eq_self]
    intro b hb
    exact decide_eq_true (hsame b hb)
  have hnone : rest.filter (fun b => Path.steps (file b) ≠ Path.steps (file a)) = [] := by
    rw [List.filter_eq_nil_iff]
    intro b hb hne
    exact of_decide_eq_true hne (hsame b hb).symm
  rw [groupByFile_eq_sortedOut, sortedOut_cons, hown, hnone]
  rfl

namespace Fix

/-! ## The report of a batch -/

/-- What the report of a batch about one file says, when its revision ended as `r`. -/
inductive Reported {σ : Type} (store : Store σ) (files : σ)
    (r : Except ApplyError FileRevision) (report : ApplyReport) : Prop
  | refused (file : String) (e : ApplyError) : r = .error e →
      report.failed = [⟨file, .apply e⟩] → report.succeeded = [] → report.applied = 0 →
      report.skippedStale = 0 → Reported store files r report
  | untouched (revision : FileRevision) : r = .ok revision → revision.contents = none →
      report.failed = [] → report.succeeded = [] → report.applied = 0 →
      report.skippedStale = revision.stale → Reported store files r report
  | written (file : String) (revision : FileRevision) (text : Text) : r = .ok revision →
      revision.contents = some text → (store.persist files file text).2 = none →
      report.failed = [] → report.succeeded = [file] → report.applied = revision.applied →
      report.skippedStale = revision.stale → Reported store files r report
  | unwritten (file : String) (revision : FileRevision) (text : Text) (e : ApplyError) :
      r = .ok revision → revision.contents = some text →
      (store.persist files file text).2 = some e → report.failed = [⟨file, .apply e⟩] →
      report.succeeded = [] → report.applied = 0 → report.skippedStale = revision.stale →
      Reported store files r report

/-- The one file of a batch is computed, then written. -/
theorem one_file_reported {σ : Type} (store : Store σ) (files : σ) {tree : Snapshot}
    {file : String} {fixes : List Fix} {r : Except ApplyError FileRevision} (manual : Nat)
    (hload : store.load files file = .ok tree) (hr : reviseTree tree fixes = some r) :
    ∃ report pending, computeFile store files ({ manualReview := manual }, []) (file, fixes) =
        some (report, pending) ∧
      Reported store files r (pending.foldl (writeFile store) (files, report)).2 := by
  unfold computeFile
  simp only [hload, hr]
  cases r with
  | error e => exact ⟨_, _, rfl, .refused file e rfl rfl rfl rfl rfl⟩
  | ok revision =>
    simp only
    cases hc : revision.contents with
    | none => exact ⟨_, _, rfl, .untouched revision rfl hc rfl rfl rfl (Nat.zero_add _)⟩
    | some text =>
      refine ⟨_, _, rfl, ?_⟩
      simp only [List.nil_append, List.foldl_cons, List.foldl_nil, writeFile]
      cases hp : store.persist files file text with
      | mk files' outcome =>
        cases outcome with
        | none =>
          exact .written file revision text rfl hc (by rw [hp]) rfl rfl (Nat.zero_add _)
            (Nat.zero_add _)
        | some e =>
          exact .unwritten file revision text e rfl hc (by rw [hp]) rfl rfl rfl (Nat.zero_add _)

/-- A batch whose sure fixes are all about one file is applied, and reported by the revision
of that file. -/
theorem applyAll_reported {σ : Type} (store : Store σ) (files : σ) {tree : Snapshot}
    {fixes : List Fix} {r : Except ApplyError FileRevision}
    (hsame : ∀ f ∈ fixes.filter isAutoApplicable, ∀ g ∈ fixes.filter isAutoApplicable,
      Path.same f.file g.file = true)
    (hload : ∀ f ∈ fixes.filter isAutoApplicable, store.load files f.file = .ok tree)
    (hr : reviseTree tree (fixes.filter isAutoApplicable) = some r) :
    ∃ files' report, applyAll store files fixes = some (files', report) ∧
      Reported store files r report := by
  unfold applyAll
  generalize fixes.filter isAutoApplicable = sure at hsame hload hr ⊢
  cases sure with
  | nil =>
    obtain rfl : r = .ok ⟨none, 0, 0⟩ := (Option.some.inj hr).symm
    exact ⟨_, _, rfl, .untouched _ rfl rfl rfl rfl rfl rfl⟩
  | cons f rest =>
    have hgroup : groupByFile Fix.file (f :: rest) = [(f.file, f :: rest)] :=
      groupByFile_of_same (fun g hg => hsame f (by simp) g (List.mem_cons_of_mem _ hg))
    obtain ⟨report, pending, hcompute, hreport⟩ := one_file_reported store files
      (fixes.length - (f :: rest).length) (hload f (by simp)) hr
    refine ⟨(pending.foldl (writeFile store) (files, report)).1,
      (pending.foldl (writeFile store) (files, report)).2, ?_, hreport⟩
    simp only [hgroup, List.foldlM_cons, List.foldlM_nil, hcompute, Option.bind_eq_bind,
      Option.bind_some, Option.pure_def]

end Fix

end Uplift
