-- Grouping is a stable partition. Issues by file, sure fixes by file and issues
-- by category are sorted out in one pass each, and each of the passes comes to
-- the plain way of sorting out. So fixes are generated file by file, as if every
-- file had been asked for with its own issues.
import Uplift.Proofs.Fix.Run
import Uplift.Report.Summary

namespace Uplift

/-! ## Groups that sort items out -/

/-- `groups` has one group for each key that an item has. The keys stand in order of first
appearance, and each has exactly its own items in order. -/
structure SortsOut {α κ ι : Type} [DecidableEq ι] (ident : κ → ι) (key : α → κ) (items : List α)
    (groups : List (κ × List α)) : Prop where
  apart : groups.Pairwise fun g h => ident g.1 ≠ ident h.1
  first_seen : groups.map (·.1) = firstSeen ident (items.map key)
  own_items : ∀ g ∈ groups, g.2 = items.filter fun a => ident g.1 = ident (key a)

theorem sortsOut_sortedOut {α κ ι : Type} [DecidableEq ι] (ident : κ → ι) (key : α → κ)
    (items : List α) : SortsOut ident key items (sortedOut ident key items) := by
  refine ⟨?_, map_fst_sortedOut items, ?_⟩
  · have hkeys := firstSeen_apart ident (items.map key)
    rwa [← map_fst_sortedOut, List.pairwise_map] at hkeys
  · intro g hg
    obtain ⟨k, _, rfl⟩ := List.mem_map.1 hg
    rfl

theorem sortsOut_groupByFile {α : Type} (file : α → String) (items : List α) :
    SortsOut Path.steps file items (groupByFile file items) := by
  rw [groupByFile_eq_sortedOut]
  exact sortsOut_sortedOut Path.steps file items

/-! ## Categories -/

/-- Where no category has two groups, an issue goes to the group of its category, or opens one
behind the others. -/
theorem addToCategory_eq {issue : Issue} {groups : List (Category × List Issue)}
    (h : groups.Pairwise fun g h => g.1 ≠ h.1) :
    addToCategory issue groups =
      if ∃ g ∈ groups, g.1 = issue.category then
        groups.map fun g => if g.1 = issue.category then (g.1, g.2 ++ [issue]) else g
      else groups ++ [(issue.category, [issue])] := by
  induction groups with
  | nil => simp [addToCategory]
  | cons g rest ih =>
    obtain ⟨c, issues⟩ := g
    rw [List.pairwise_cons] at h
    unfold addToCategory
    by_cases hc : c = issue.category
    · have hrest : ∀ g ∈ rest, (if g.1 = issue.category then (g.1, g.2 ++ [issue]) else g) = g := by
        intro g hg
        exact if_neg fun he => h.1 g hg (hc.trans he.symm)
      rw [if_pos hc, if_pos ⟨(c, issues), List.mem_cons_self, hc⟩, List.map_cons, if_pos hc,
        List.map_congr_left hrest, List.map_id']
    · have hiff : (∃ g ∈ (c, issues) :: rest, g.1 = issue.category) ↔
          ∃ g ∈ rest, g.1 = issue.category := by
        simp [hc]
      rw [if_neg hc, ih h.2]
      by_cases hseen : ∃ g ∈ rest, g.1 = issue.category
      · rw [if_pos hseen, if_pos (hiff.2 hseen), List.map_cons, if_neg hc]
      · rw [if_neg hseen, if_neg (mt hiff.1 hseen), List.cons_append]

theorem issuesByCategory_eq_sortedOut (issues : List Issue) :
    issuesByCategory issues = sortedOut id Issue.category issues := by
  induction issues using List.reverseRecOn with
  | nil => rfl
  | append_singleton issues issue ih =>
    have happart := (sortsOut_sortedOut id Issue.category issues).apart
    have hgroup : (∃ g ∈ sortedOut id Issue.category issues, g.1 = issue.category) ↔
        ∃ b ∈ issues, id b.category = id issue.category := exists_mem_sortedOut
    unfold issuesByCategory at ih ⊢
    rw [List.foldl_append, List.foldl_cons, List.foldl_nil, ih, addToCategory_eq happart,
      sortedOut_concat]
    by_cases hseen : ∃ b ∈ issues, id b.category = id issue.category
    · rw [if_pos hseen, if_pos (hgroup.2 hseen)]
      rfl
    · rw [if_neg hseen, if_neg (mt hgroup.1 hseen)]

/-! ## Generating -/

namespace Fix

variable {σ : Type} (store : Store σ) (files : σ)

/-- What a file has for the list of fixes: the fixes of its own issues, if it can be loaded. -/
def fixesOfFile (issues : List Issue) (path : String) : List Fix :=
  match store.load files path with
  | .ok tree => generateForTree tree (issues.filter fun i => Path.steps path = Path.steps i.file)
  | .error _ => []

/-- What a file has for the list of errors: one error, if it cannot be loaded. -/
def errorOfFile? (path : String) : Option RunError :=
  match store.load files path with
  | .ok _ => none
  | .error e => some (.parse e)

variable {store files}

/-- The fixes and errors of one more file stand behind those of the files before. -/
theorem foldl_files (issues : List Issue) (paths : List String) (fixes : List Fix)
    (errors : List RunError) :
    (paths.map fun path => (path, itemsOf Path.steps Issue.file path issues)).foldl
        (fun (fixes, errors) (path, own) =>
          match store.load files path with
          | .error e => (fixes, errors ++ [.parse e])
          | .ok tree => (fixes ++ generateForTree tree own, errors)) (fixes, errors) =
      (fixes ++ paths.flatMap (fixesOfFile store files issues),
        errors ++ paths.filterMap (errorOfFile? store files)) := by
  induction paths generalizing fixes errors with
  | nil => simp
  | cons path paths ih =>
    rw [List.map_cons, List.foldl_cons, List.flatMap_cons, List.filterMap_cons]
    cases hload : store.load files path with
    | error e =>
      have hfixes : fixesOfFile store files issues path = [] := by simp [fixesOfFile, hload]
      have herror : errorOfFile? store files path = some (.parse e) := by
        simp [errorOfFile?, hload]
      simp only [hload, ih, hfixes, herror, List.nil_append, List.append_assoc,
        List.singleton_append]
    | ok tree =>
      have hfixes : fixesOfFile store files issues path =
          generateForTree tree (itemsOf Path.steps Issue.file path issues) := by
        simp [fixesOfFile, itemsOf, hload]
      have herror : errorOfFile? store files path = none := by simp [errorOfFile?, hload]
      simp only [hload, ih, hfixes, herror, List.append_assoc]

theorem generate_eq (issues : List Issue) :
    generate store files issues =
      ((firstSeen Path.steps (issues.map Issue.file)).flatMap (fixesOfFile store files issues),
        (firstSeen Path.steps (issues.map Issue.file)).filterMap (errorOfFile? store files)) := by
  unfold generate
  rw [groupByFile_eq_sortedOut]
  exact foldl_files issues _ [] []

end Fix

/-! ## The law -/

/-- Every grouping is a stable partition: no two groups share a key, keys stand in order of
first appearance, and a group holds exactly the items of its key, in order. Fixes and errors
are therefore those of one file after the other, each loaded once and given its own issues. -/
theorem every_grouping_is_a_stable_partition :
    (∀ {α : Type} (file : α → String) (items : List α),
      SortsOut Path.steps file items (groupByFile file items)) ∧
    (∀ fixes : List Fix,
      SortsOut Path.steps Fix.file (fixes.filter Fix.isAutoApplicable) (Fix.sureGroups fixes)) ∧
    (∀ issues : List Issue, SortsOut id Issue.category issues (issuesByCategory issues)) ∧
    ∀ {σ : Type} (store : Store σ) (files : σ) (issues : List Issue),
      Fix.generate store files issues =
        ((firstSeen Path.steps (issues.map Issue.file)).flatMap
            (Fix.fixesOfFile store files issues),
          (firstSeen Path.steps (issues.map Issue.file)).filterMap
            (Fix.errorOfFile? store files)) := by
  refine ⟨sortsOut_groupByFile, ?_, ?_, fun _ _ => Fix.generate_eq⟩
  · intro fixes
    exact sortsOut_groupByFile Fix.file (fixes.filter Fix.isAutoApplicable)
  · intro issues
    rw [issuesByCategory_eq_sortedOut]
    exact sortsOut_sortedOut id Issue.category issues

end Uplift
