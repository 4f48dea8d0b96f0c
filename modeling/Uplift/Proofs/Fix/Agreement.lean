-- What is proposed and what is applied agree. As long as a file is unchanged,
-- every sure fix finds the method it was made for, renames write the text that
-- was shown, moves queue the state that was shown, and no class refuses its
-- state.
import Uplift.Proofs.Fix.Batch
import Uplift.Proofs.Fix.Generated
import Uplift.Proofs.Fix.Revision
import Uplift.Store.Memory

namespace Uplift.Fix

open Revise (StateOutcome)

/-! ## One fix finds its method again -/

section

variable {tree : Snapshot} {issue : Issue} {c : ClassDecl} {m : Method} {taken : List Taken}
  {fix : Fix}

/-- The fix asks for the method under the name and the line of the issue. -/
theorem MadeOf.located (h : MadeOf tree issue c m taken fix) :
    locate? tree fix = some (c, m) := by
  obtain ⟨habout, _⟩ := h.verdict
  obtain ⟨_, _, _, hname, _⟩ := Snapshot.findMethod?_eq_some h.1
  rw [locate?_eq_some, habout.api, habout.line, hname]
  exact ⟨h.1, habout.before.symm⟩

theorem MadeOf.target (h : MadeOf tree issue c m taken fix) (hsure : fix.confidence = .high) :
    target? tree fix = some (c, m) := by
  have hl := h.located
  obtain ⟨_, _, hv⟩ := h.verdict
  cases hv with
  | removed _ hk _ => simp [target?, hl, hk]
  | renamed _ _ hk _ _ => simp [target?, hl, hk]
  | moved props _ hx _ hk _ _ => simp [target?, hl, hk, hx]
  | reviewed _ hlow => exact absurd hsure hlow

/-- The fix does to its method what it shows: a rename replaces the method by the text of the
fix, and a move queues the state that the text of the fix previews. -/
structure AppliesAsShown (tree : Snapshot) (c : ClassDecl) (m : Method) (fix : Fix) : Prop where
  rename : fix.kind = .rename → ∀ work, addEdits tree work fix = some { work with
    edits := work.edits ++ [⟨m.span.start, m.span.stop, fix.after⟩]
    applied := work.applied + 1 }
  move : fix.kind = .moveToConstructor → ∀ work, ∃ props work',
    addEdits tree work fix = some work' ∧
      queueState tree.source work.states c m.span.start props = some work'.states ∧
      Revise.constructorPreview props = fix.after

theorem MadeOf.appliesAsShown (hfit : tree.SpansFit) (h : MadeOf tree issue c m taken fix)
    (hsure : fix.confidence = .high) : AppliesAsShown tree c m fix := by
  have ht := h.target hsure
  obtain ⟨_, _, hv⟩ := h.verdict
  constructor
  · intro hk work
    obtain ⟨_, _, hafter⟩ := hv.of_rename hk
    obtain ⟨work', ha, hs⟩ := addEdits_step hfit work fix
    cases hs with
    | stale hn => simp [ht] at hn
    | left hn _ => simp [ht] at hn
    | moved _ _ _ _ _ _ hk' _ _ _ => simp [hk'] at hk
    | edited d n e ht' _ _ he =>
      obtain ⟨rfl, rfl⟩ := Prod.mk.inj (Option.some.inj (ht.symm.trans ht'))
      rw [ha, he hk, hafter]
  · intro hk work
    obtain ⟨_, _, _, props, hx, hafter⟩ := hv.of_move hk
    obtain ⟨work', ha, hs⟩ := addEdits_step hfit work fix
    cases hs with
    | stale hn => simp [ht] at hn
    | left hn _ => simp [ht] at hn
    | edited _ _ _ _ hk' _ _ => exact absurd hk hk'
    | moved d n e props' states ht' _ hx' hq _ =>
      obtain ⟨rfl, rfl⟩ := Prod.mk.inj (Option.some.inj (ht.symm.trans ht'))
      obtain rfl := Option.some.inj (hx.symm.trans hx')
      exact ⟨props, _, ha, hq, hafter.symm⟩

end

/-! ## All sure fixes -/

/-- The sure fixes that are generated for a file. -/
def sureFixes (tree : Snapshot) (issues : List Issue) : List Fix :=
  (generateForTree tree issues).filter isAutoApplicable

theorem mem_sureFixes {tree : Snapshot} {issues : List Issue} {fix : Fix}
    (h : fix ∈ sureFixes tree issues) :
    fix.confidence = .high ∧ ∃ issue ∈ issues, ∃ c m taken, MadeOf tree issue c m taken fix := by
  unfold sureFixes at h
  obtain ⟨hmem, hsure⟩ := List.mem_filter.1 h
  obtain ⟨issue, hi, c, m, taken, _, hmade⟩ := madeOf_of_mem hmem
  exact ⟨by simpa [isAutoApplicable] using hsure, issue, hi, c, m, taken, hmade⟩

/-- Fixes that all find their methods are all applied. -/
theorem Gathered.all_applied {tree : Snapshot} {fixes : List Fix} {work : FileEdits}
    {placed : List Placed} (hg : Gathered tree fixes work placed)
    (h : ∀ fix ∈ fixes, ∃ p, target? tree fix = some p) :
    work.applied = fixes.length ∧ work.stale = 0 := by
  have hlen : placed.length = fixes.length := by
    rw [← List.length_map (·.1), hg.targets, List.filterMap_length_eq_length]
    intro fix hfix
    exact Option.isSome_iff_exists.2 (h fix hfix)
  have happlied := hg.applied
  have hcounted := hg.counted
  omega

/-- A revision ends with all fixes applied, or is refused for another cause than state that
cannot be merged. -/
theorem Revised.of_mergeable {tree : Snapshot} {work : FileEdits} {placed : List Placed}
    {r : Except ApplyError FileRevision} (h : Revised tree work placed r)
    (hmerge : ∀ c ∈ work.states.map (·.cls), Revise.isMergeable c = true) :
    (∀ line, r ≠ .error (.unmergeableState line)) ∧
      ∀ revision, r = .ok revision →
        revision.applied = work.applied ∧ revision.stale = work.stale := by
  cases h with
  | refused c e hc hbad =>
    refine ⟨?_, by simp⟩
    rintro line he
    cases he
    cases hbad with
    | unmergeable _ hno => simp [hmerge c hc] at hno
  | untouched _ =>
    refine ⟨by simp, ?_⟩
    rintro revision hr
    cases hr
    exact ⟨rfl, rfl⟩
  | edited spots _ _ =>
    cases ha : Edit.applyAll tree.source (placed.map (·.2) ++ spots.map (·.2)) with
    | error e =>
      refine ⟨?_, by simp [Except.map]⟩
      rintro line he
      rcases Edit.applyAll_error ha with ⟨a, b, len, rfl⟩ | ⟨a, b, rfl⟩
      · simp [Except.map] at he
      · simp [Except.map] at he
    | ok text =>
      refine ⟨by simp [Except.map], ?_⟩
      rintro revision hr
      cases hr
      exact ⟨rfl, rfl⟩

/-- A class with queued state can take it. -/
theorem Gathered.queued_mergeable {tree : Snapshot} {issues : List Issue} {work : FileEdits}
    {placed : List Placed} (hg : Gathered tree (sureFixes tree issues) work placed) :
    ∀ c ∈ work.states.map (·.cls), Revise.isMergeable c = true := by
  intro c hc
  obtain ⟨fix, hfix, m, hk, ht⟩ := hg.queued c hc
  obtain ⟨hsure, issue, _, d, n, taken, hmade⟩ := mem_sureFixes hfix
  obtain ⟨rfl, rfl⟩ := Prod.mk.inj (Option.some.inj (ht.symm.trans (hmade.target hsure)))
  obtain ⟨_, _, hv⟩ := hmade.verdict
  exact (hv.of_move hk).2.2.1

/-- The revision of an unchanged file by its own sure fixes has an answer; it is never refused
for its state, and leaves none of the fixes out. -/
theorem sureFixes_revised {tree : Snapshot} (hfit : tree.SpansFit) (issues : List Issue) :
    ∃ r, reviseTree tree (sureFixes tree issues) = some r ∧
      (∀ line, r ≠ .error (.unmergeableState line)) ∧
      ∀ revision, r = .ok revision →
        revision.applied = (sureFixes tree issues).length ∧ revision.stale = 0 := by
  obtain ⟨work, placed, r, _, hg, hr, hrev⟩ := reviseTree_revised hfit (sureFixes tree issues)
  have htarget : ∀ fix ∈ sureFixes tree issues, ∃ p, target? tree fix = some p := by
    intro fix hfix
    obtain ⟨hsure, issue, _, c, m, taken, hmade⟩ := mem_sureFixes hfix
    exact ⟨(c, m), hmade.target hsure⟩
  obtain ⟨happlied, hstale⟩ := hg.all_applied htarget
  obtain ⟨hne, hok⟩ := hrev.of_mergeable hg.queued_mergeable
  refine ⟨r, hr, hne, ?_⟩
  intro revision he
  obtain ⟨h1, h2⟩ := hok revision he
  exact ⟨h1.trans happlied, h2.trans hstale⟩

/-- The fixes of one file make one batch, which is reported by the revision of that file. -/
theorem sureFixes_reported {σ : Type} (store : Store σ) (files : σ) {tree : Snapshot}
    {file : String} {issues : List Issue} {r : Except ApplyError FileRevision}
    (hfile : ∀ i ∈ issues, Path.same i.file file = true)
    (hload : ∀ i ∈ issues, store.load files i.file = .ok tree)
    (hr : reviseTree tree (sureFixes tree issues) = some r) :
    ∃ files' report, applyAll store files (generateForTree tree issues) = some (files', report) ∧
      Reported store files r report := by
  have hissue : ∀ f ∈ sureFixes tree issues, ∃ i ∈ issues, f.file = i.file := by
    intro f hf
    obtain ⟨_, issue, hi, c, m, taken, hmade⟩ := mem_sureFixes hf
    exact ⟨issue, hi, hmade.verdict.1.file⟩
  refine applyAll_reported store files ?_ ?_ hr
  · intro f hf g hg
    obtain ⟨i, hi, hfi⟩ := hissue f hf
    obtain ⟨j, hj, hgj⟩ := hissue g hg
    rw [hfi, hgj, Path.same_iff, Path.same_iff.1 (hfile i hi), Path.same_iff.1 (hfile j hj)]
  · intro f hf
    obtain ⟨i, hi, hfi⟩ := hissue f hf
    rw [hfi]
    exact hload i hi

/-! ## The law -/

/-- Fixes generated for a file apply to it as they were shown, whatever issues they were made
of, as long as the file is loaded as it was. The only state that can be reported as impossible
to merge is what the store itself reports when the file is written. -/
theorem generated_fixes_apply_as_shown {σ : Type} (store : Store σ) (files : σ)
    (tree : Snapshot) (hfit : tree.SpansFit) (file : String) (issues : List Issue)
    (hfile : ∀ i ∈ issues, Path.same i.file file = true)
    (hload : ∀ i ∈ issues, store.load files i.file = .ok tree) :
    (∀ fix ∈ sureFixes tree issues, ∃ issue ∈ issues, ∃ c m,
      tree.findMethod? issue.api issue.line = some (c, m) ∧ About issue m fix ∧
        AppliesAsShown tree c m fix) ∧
    (∃ r, reviseTree tree (sureFixes tree issues) = some r ∧
      (∀ line, r ≠ .error (.unmergeableState line)) ∧
      ∀ revision, r = .ok revision →
        revision.applied = (sureFixes tree issues).length ∧ revision.stale = 0) ∧
    ∃ files' report, applyAll store files (generateForTree tree issues) = some (files', report) ∧
      report.skippedStale = 0 ∧
      (∀ failure ∈ report.failed, ∀ line, failure.error = .apply (.unmergeableState line) →
        ∃ text, (store.persist files failure.file text).2 = some (.unmergeableState line)) ∧
      (report.succeeded ≠ [] → report.applied = (sureFixes tree issues).length) := by
  obtain ⟨r, hr, hne, hok⟩ := sureFixes_revised hfit issues
  refine ⟨?_, ⟨r, hr, hne, hok⟩, ?_⟩
  · intro fix hfix
    obtain ⟨hsure, issue, hi, c, m, taken, hmade⟩ := mem_sureFixes hfix
    exact ⟨issue, hi, c, m, hmade.1, hmade.verdict.1, hmade.appliesAsShown hfit hsure⟩
  · obtain ⟨files', report, happly, hrep⟩ := sureFixes_reported store files hfile hload hr
    refine ⟨files', report, happly, ?_⟩
    cases hrep with
    | refused path e he hfailed hsucc _ hstale =>
      refine ⟨hstale, ?_, fun h => absurd hsucc h⟩
      intro failure hf line hl
      rw [hfailed, List.mem_singleton] at hf
      subst hf
      cases hl
      exact absurd he (hne line)
    | untouched revision he _ hfailed hsucc _ hstale =>
      refine ⟨hstale.trans (hok revision he).2, ?_, fun h => absurd hsucc h⟩
      simp [hfailed]
    | written path revision text he _ _ hfailed _ happlied hstale =>
      refine ⟨hstale.trans (hok revision he).2, by simp [hfailed], ?_⟩
      exact fun _ => happlied.trans (hok revision he).1
    | unwritten path revision text e he _ hpersist hfailed hsucc _ hstale =>
      refine ⟨hstale.trans (hok revision he).2, ?_, fun h => absurd hsucc h⟩
      intro failure hf line hl
      rw [hfailed, List.mem_singleton] at hf
      subst hf
      cases hl
      exact ⟨text, hpersist⟩

/-- An issue about each method of the sample. -/
def sampleIssues : List Issue :=
  Snapshot.sample.classes.flatMap fun c => c.methods.map fun m =>
    .ofRule ⟨m.name, "16.3.0", none, "", .warning, none⟩ .lifecycleMethods m.name "A.jsx" m.span ""

/-- The sample in memory. -/
def sampleFiles : Memory := ⟨[⟨"A.jsx", Snapshot.sample.source, some Snapshot.sample⟩], []⟩

/-- A move, a removal and a rename in one class. -/
theorem sample_fixes_apply_as_shown :
    Snapshot.sample.SpansFit ∧ (∀ i ∈ sampleIssues, Path.same i.file "A.jsx" = true) ∧
      (∀ i ∈ sampleIssues, Memory.store.load sampleFiles i.file = .ok Snapshot.sample) ∧
      (sureFixes Snapshot.sample sampleIssues).map (·.kind) =
        [.moveToConstructor, .remove, .rename] ∧
      ∃ files' report, applyAll Memory.store sampleFiles
          (generateForTree Snapshot.sample sampleIssues) = some (files', report) ∧
        report.skippedStale = 0 ∧ (report.succeeded ≠ [] → report.applied = 3) := by
  have hfit := Snapshot.sample_wellFormed.spans_fit
  have hfile : ∀ i ∈ sampleIssues, Path.same i.file "A.jsx" = true := by decide +kernel
  have hload : ∀ i ∈ sampleIssues, Memory.store.load sampleFiles i.file = .ok Snapshot.sample := by
    decide +kernel
  have hkinds : (sureFixes Snapshot.sample sampleIssues).map (·.kind) =
      [.moveToConstructor, .remove, .rename] := by decide +kernel
  obtain ⟨_, _, files', report, happly, hstale, _, happlied⟩ :=
    generated_fixes_apply_as_shown Memory.store sampleFiles Snapshot.sample hfit "A.jsx"
      sampleIssues hfile hload
  have hlen : (sureFixes Snapshot.sample sampleIssues).length = 3 := by
    rw [← List.length_map (·.kind), hkinds]
    rfl
  exact ⟨hfit, hfile, hload, hkinds, files', report, happly, hstale,
    fun h => (happlied h).trans hlen⟩

end Uplift.Fix
