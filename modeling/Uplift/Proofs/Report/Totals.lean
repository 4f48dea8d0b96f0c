-- The totals of a report. An issue gets one fix or none, whatever file it is in
-- and whatever files fail to load. So the fixes that need no review are never
-- more than the issues, and what is left over are the issues that a person has
-- to look at.
import Uplift.Proofs.Fix.Answered
import Uplift.Proofs.Fix.FileByFile

namespace Uplift

/-! ## Counting fixes -/

/-- The counts say how many fixes there are at or above a level. -/
theorem FixCounts.atLeast_ofFixes (fixes : List Fix) (level : Confidence) :
    (FixCounts.ofFixes fixes).atLeast level =
      fixes.countP fun fix => fix.confidence.meets level := by
  induction fixes with
  | nil => cases level <;> rfl
  | cons fix fixes ih =>
    rw [List.countP_cons, ← ih]
    unfold ofFixes atLeast total Confidence.meets
    -- A fix adds to one of the three counts; the level says whether that count is asked for.
    cases level <;> cases hc : fix.confidence <;> simp [Confidence.rank, hc] <;> omega

/-! ## One answer to each issue -/

namespace Fix

variable {σ : Type} (store : Store σ) (files : σ)

/-- What an issue gets. Its file goes by the name that the first issue of it gives; if that
file cannot be loaded there is no fix, and otherwise the answer that its snapshot gives. -/
def Gets (issues : List Issue) (issue : Issue) (answer : Option Fix) : Prop :=
  ∃ path ∈ firstSeen Path.steps (issues.map Issue.file), Path.steps path = Path.steps issue.file ∧
    match store.load files path with
    | .ok tree => Answer tree issue answer
    | .error _ => answer = none

/-- The fixes of one file are the answers to its issues. -/
theorem fixesOfFile_answers {issues : List Issue} {path : String}
    (hpath : path ∈ firstSeen Path.steps (issues.map Issue.file)) :
    ∃ answers,
      List.Forall₂ (Gets store files issues) (itemsOf Path.steps Issue.file path issues) answers ∧
      fixesOfFile store files issues path = answers.reduceOption := by
  have hown : ∀ issue ∈ itemsOf Path.steps Issue.file path issues,
      Path.steps path = Path.steps issue.file :=
    fun issue h => of_decide_eq_true (List.mem_filter.1 h).2
  unfold fixesOfFile Gets
  cases hload : store.load files path with
  | error e =>
    refine ⟨(itemsOf Path.steps Issue.file path issues).map fun _ => none, ?_, ?_⟩
    · rw [List.forall₂_map_right_iff, List.forall₂_same]
      intro issue h
      exact ⟨path, hpath, hown issue h, by rw [hload]⟩
    · rw [List.map_const', List.reduceOption_replicate_none]
  | ok tree =>
    obtain ⟨answers, hanswers, heq⟩ :=
      generateFrom_eq_reduceOption tree [] (itemsOf Path.steps Issue.file path issues)
    refine ⟨answers, ?_, heq⟩
    have hall := (List.forall₂_and_left _ _).2 ⟨hown, hanswers⟩
    refine hall.imp ?_
    intro issue answer h
    exact ⟨path, hpath, h.1, by rw [hload]; exact h.2⟩

/-- The fixes of the files are the answers to their issues, file by file. -/
theorem fixesOfFiles_answers {issues : List Issue} (paths : List String)
    (hpaths : paths ⊆ firstSeen Path.steps (issues.map Issue.file)) :
    ∃ answers,
      List.Forall₂ (Gets store files issues)
        (paths.flatMap fun path => itemsOf Path.steps Issue.file path issues) answers ∧
      paths.flatMap (fixesOfFile store files issues) = answers.reduceOption := by
  induction paths with
  | nil => exact ⟨[], .nil, rfl⟩
  | cons path paths ih =>
    obtain ⟨hpath, hpaths⟩ := List.cons_subset.1 hpaths
    obtain ⟨own, hown, hfixes⟩ := fixesOfFile_answers store files hpath
    obtain ⟨others, hothers, hrest⟩ := ih hpaths
    refine ⟨own ++ others, ?_, ?_⟩
    · rw [List.flatMap_cons]
      exact List.rel_append hown hothers
    · rw [List.flatMap_cons, hfixes, hrest, List.reduceOption_append]

/-- Every issue gets one answer, and the answers together are the fixes. -/
theorem generate_answers (issues : List Issue) :
    ∃ answers, List.Forall₂ (Gets store files issues) issues answers ∧
      answers.reduceOption.Perm (generate store files issues).1 := by
  obtain ⟨grouped, hgrouped, hfixes⟩ := fixesOfFiles_answers store files
    (firstSeen Path.steps (issues.map Issue.file)) (List.Subset.refl _)
  have hperm : issues.Perm ((firstSeen Path.steps (issues.map Issue.file)).flatMap fun path =>
      itemsOf Path.steps Issue.file path issues) := by
    have hsorted := sortedOut_perm Path.steps Issue.file issues
    unfold sortedOut at hsorted
    rw [List.flatMap_map] at hsorted
    exact hsorted.symm
  obtain ⟨answers, hanswers, hmoved⟩ := List.perm_comp_forall₂ hperm hgrouped
  refine ⟨answers, hanswers, ?_⟩
  rw [generate_eq, hfixes]
  exact hmoved.filterMap id

end Fix

/-! ## The law -/

/-- The issue that got this answer is left to a person: there is no fix, or one below the
level. -/
def NeedsReview (level : Confidence) (answer : Option Fix) : Prop :=
  answer = none ∨ ∃ fix ∈ answer, fix.confidence.rank < level.rank

instance (level : Confidence) (answer : Option Fix) : Decidable (NeedsReview level answer) :=
  inferInstanceAs (Decidable (_ ∨ _))

/-- Every answer needs review or is a fix that counts. -/
theorem countP_needsReview (level : Confidence) (answers : List (Option Fix)) :
    answers.reduceOption.countP (fun fix => fix.confidence.meets level) +
      answers.countP (fun answer => NeedsReview level answer) = answers.length := by
  induction answers with
  | nil => rfl
  | cons answer answers ih =>
    rw [List.countP_cons, List.length_cons, ← ih]
    cases answer with
    | none =>
      rw [List.reduceOption_cons_of_none, if_pos (by simp [NeedsReview])]
      omega
    | some fix =>
      rw [List.reduceOption_cons_of_some, List.countP_cons]
      by_cases h : level.rank ≤ fix.confidence.rank
      · rw [if_pos (by simpa [Confidence.meets] using h), if_neg (by simpa [NeedsReview] using h)]
        omega
      · rw [if_neg (by simpa [Confidence.meets] using h), if_pos (by simpa [NeedsReview] using h)]
        omega

/-- The totals of a report share out the issues. The fixes that count are those at or above the
level; they are never more than the issues, and with the issues that need review they make up
all of them. An issue needs review exactly when it got no fix or a fix below the level. -/
theorem report_totals_share_out_the_issues {σ : Type} (store : Store σ) (files : σ)
    (pattern : String) (dryRun : Bool) (detection : Detection) (errors : List RunError)
    (level : Confidence) (apply : Option ApplyReport) :
    let fixes := (Fix.generate store files detection.issues).1
    let summary := RunSummary.ofRun pattern dryRun detection fixes errors level apply
    summary.autoFixable = (fixes.filter fun fix => level.rank ≤ fix.confidence.rank).length ∧
    summary.autoFixable ≤ detection.issues.length ∧
    summary.autoFixable + summary.needsReview = detection.issues.length ∧
    ∃ answers,
      List.Forall₂ (Fix.Gets store files detection.issues) detection.issues answers ∧
      answers.reduceOption.Perm fixes ∧
      summary.needsReview = (answers.filter fun answer => NeedsReview level answer).length := by
  intro fixes summary
  obtain ⟨answers, hanswers, hperm⟩ :=
    Fix.generate_answers store files detection.issues
  have hauto : summary.autoFixable = fixes.countP fun fix => fix.confidence.meets level :=
    FixCounts.atLeast_ofFixes fixes level
  have hcount : fixes.countP (fun fix => fix.confidence.meets level) =
      answers.reduceOption.countP fun fix => fix.confidence.meets level := (hperm.countP_eq _).symm
  have hsplit := countP_needsReview level answers
  have hlength := hanswers.length_eq
  have hreview : summary.needsReview = detection.issues.length - summary.autoFixable := rfl
  refine ⟨?_, by omega, by omega, answers, hanswers, hperm, ?_⟩
  · rw [hauto, List.countP_eq_length_filter]
    rfl
  · rw [← List.countP_eq_length_filter]
    omega

end Uplift
