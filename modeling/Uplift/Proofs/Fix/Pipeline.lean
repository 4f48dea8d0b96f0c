-- Scanning a file, generating fixes for all that was found and applying them to
-- the unchanged file. The file is refused for colliding edits exactly when two
-- findings lead to one method that goes each time it is reported: an empty one,
-- or one whose state moves into the constructor. Renames are safe, since a hook
-- is taken only once.
import Mathlib.Data.List.Basic
import Uplift.Catalog.React
import Uplift.Proofs.Detect.Findings
import Uplift.Proofs.Fix.Agreement
import Uplift.Proofs.Fix.Collisions

namespace Uplift.Fix

open Lifecycle (classify)

/-! ## Methods that go each time they are reported -/

/-- A fix of the method removes it, whatever was fixed before. -/
def goes (tree : Snapshot) (p : ClassDecl × Method) : Bool :=
  match classify p.2.name p.2.body with
  | .empty => true
  | .setStateOnly => (State.extract? tree p.2).isSome && Revise.isMergeable p.1
  | _ => false

section

variable {tree : Snapshot} {issue : Issue} {c : ClassDecl} {m : Method} {taken : List Taken}

theorem create_goes (h : goes tree (c, m) = true) :
    (create tree issue c m taken).1.any isAutoApplicable = true := by
  unfold goes at h
  unfold create
  dsimp only at h ⊢
  split at h
  · rename_i hp
    rw [hp]
    rfl
  · rename_i hp
    rw [hp]
    simp only [Bool.and_eq_true, Option.isSome_iff_exists] at h
    obtain ⟨⟨props, hx⟩, hmerge⟩ := h
    simp [stateMove?, hx, hmerge, about, isAutoApplicable]
  · cases h

/-- A sure fix of any other method takes a hook that was free. -/
theorem create_stays (h : goes tree (c, m) = false)
    (hsure : (create tree issue c m taken).1.any isAutoApplicable = true) :
    hookOf c m ∉ taken ∧ hookOf c m ∈ (create tree issue c m taken).2 := by
  cases hmade : create tree issue c m taken with
  | mk made taken' =>
    rw [hmade] at hsure
    obtain ⟨fix, rfl, hhigh⟩ := (Option.any_eq_true _ _).1 hsure
    cases (create_verdict hmade).2 with
    | renamed hfree _ _ _ _ => exact ⟨hfree, by simp⟩
    | removed hp _ _ => simp [goes, hp] at h
    | moved props hp hx hmerge _ _ _ => simp [goes, hp, hx, hmerge] at h
    | reviewed _ hlow => simp [isAutoApplicable, hlow] at hhigh

end

/-! ## The methods that sure fixes change -/

/-- The methods that the sure fixes of a file change, in order. -/
def sureTargets (tree : Snapshot) (taken : List Taken) (issues : List Issue) :
    List (ClassDecl × Method) :=
  ((generateFrom tree taken issues).filter isAutoApplicable).filterMap (target? tree)

theorem sureTargets_none {tree : Snapshot} {taken : List Taken} {issue : Issue}
    {rest : List Issue} (h : tree.findMethod? issue.api issue.line = none) :
    sureTargets tree taken (issue :: rest) = sureTargets tree taken rest := by
  simp [sureTargets, generateFrom, h]

theorem sureTargets_some {tree : Snapshot} {taken : List Taken} {issue : Issue}
    {rest : List Issue} {c : ClassDecl} {m : Method}
    (h : tree.findMethod? issue.api issue.line = some (c, m)) :
    sureTargets tree taken (issue :: rest) =
      (if (create tree issue c m taken).1.any isAutoApplicable then [(c, m)] else []) ++
        sureTargets tree (create tree issue c m taken).2 rest := by
  unfold sureTargets
  rw [generateFrom, h]
  simp only [List.filter_append, List.filterMap_append]
  congr 1
  cases hmade : (create tree issue c m taken).1 with
  | none => rfl
  | some fix =>
    by_cases hsure : isAutoApplicable fix = true
    · have hhigh : fix.confidence = .high := by simpa [isAutoApplicable] using hsure
      have ht : target? tree fix = some (c, m) := MadeOf.target ⟨h, hmade⟩ hhigh
      simp [hsure, ht]
    · simp [hsure]

/-- The methods that go are changed once for each issue that leads to them. -/
theorem sureTargets_filter_goes (tree : Snapshot) (taken : List Taken) (issues : List Issue) :
    (sureTargets tree taken issues).filter (goes tree) =
      issues.filterMap fun i => (tree.findMethod? i.api i.line).filter (goes tree) := by
  induction issues generalizing taken with
  | nil => rfl
  | cons issue rest ih =>
    cases hf : tree.findMethod? issue.api issue.line with
    | none => rw [sureTargets_none hf, ih, List.filterMap_cons_none (by simp [hf])]
    | some p =>
      obtain ⟨c, m⟩ := p
      rw [sureTargets_some hf, List.filter_append, ih]
      by_cases hg : goes tree (c, m) = true
      · rw [if_pos (create_goes hg), List.filterMap_cons_some (b := (c, m)) (by simp [hf, hg])]
        simp [hg]
      · rw [List.filterMap_cons_none (by simp [hf, hg])]
        split
        · simp [hg]
        · rfl

/-- No other method is changed twice, and its hook was free. -/
theorem sureTargets_filter_stays (tree : Snapshot) (taken : List Taken) (issues : List Issue) :
    ((sureTargets tree taken issues).filter fun p => !goes tree p).Nodup ∧
      ∀ p ∈ (sureTargets tree taken issues).filter fun p => !goes tree p,
        hookOf p.1 p.2 ∉ taken := by
  induction issues generalizing taken with
  | nil => exact ⟨List.nodup_nil, by simp [sureTargets, generateFrom]⟩
  | cons issue rest ih =>
    cases hf : tree.findMethod? issue.api issue.line with
    | none =>
      rw [sureTargets_none hf]
      exact ih taken
    | some p =>
      obtain ⟨c, m⟩ := p
      rw [sureTargets_some hf, List.filter_append]
      obtain ⟨hone, hfree⟩ := ih (create tree issue c m taken).2
      have hfree' : ∀ p ∈ (sureTargets tree (create tree issue c m taken).2 rest).filter
          fun p => !goes tree p, hookOf p.1 p.2 ∉ taken :=
        fun p hp hmem => hfree p hp (taken_subset_create hmem)
      split
      · rename_i hsure
        by_cases hg : goes tree (c, m) = true
        · have hlone : List.filter (fun p => !goes tree p) [(c, m)] = [] := by simp [hg]
          rw [hlone]
          exact ⟨hone, hfree'⟩
        · obtain ⟨hhook, htaken⟩ := create_stays (by simpa using hg) hsure
          have hlone : List.filter (fun p => !goes tree p) [(c, m)] = [(c, m)] := by simp [hg]
          rw [hlone]
          refine ⟨List.nodup_cons.2 ⟨fun hmem => hfree _ hmem htaken, hone⟩, ?_⟩
          intro p hp
          rcases List.mem_cons.1 hp with rfl | hp
          · exact hhook
          · exact hfree' p hp
      · exact ⟨hone, hfree'⟩

/-! ## Findings that lead to one method -/

/-- Two of the issues lead to one method, which goes each time. -/
def ReportedTwice (tree : Snapshot) (issues : List Issue) : Prop :=
  ∃ i j p, [i, j].Sublist issues ∧ tree.findMethod? i.api i.line = some p ∧
    tree.findMethod? j.api j.line = some p ∧ goes tree p = true

theorem nodup_filter_goes {tree : Snapshot} {issues : List Issue} :
    (sureTargets tree [] issues).Nodup ↔
      ((sureTargets tree [] issues).filter (goes tree)).Nodup := by
  obtain ⟨hstays, _⟩ := sureTargets_filter_stays tree [] issues
  rw [List.nodup_iff_count] at hstays
  simp only [List.nodup_iff_count]
  constructor
  · intro h p
    exact Nat.le_trans (List.Sublist.count_le p List.filter_sublist) (h p)
  · intro h p
    by_cases hg : goes tree p = true
    · rw [← List.count_filter hg]
      exact h p
    · rw [← List.count_filter (p := fun p => !goes tree p) (by simpa using hg)]
      exact hstays p

theorem sureTargets_nodup_iff (tree : Snapshot) (issues : List Issue) :
    (sureTargets tree [] issues).Nodup ↔ ¬ ReportedTwice tree issues := by
  rw [nodup_filter_goes, sureTargets_filter_goes]
  unfold List.Nodup
  rw [List.pairwise_filterMap, List.pairwise_iff_forall_sublist]
  constructor
  · rintro h ⟨i, j, p, hij, hi, hj, hg⟩
    exact h hij p (by simp [hi, hg]) p (by simp [hj, hg]) rfl
  · rintro h i j hij p hi q hj rfl
    obtain ⟨hi, hg⟩ := Option.filter_eq_some_iff.1 hi
    obtain ⟨hj, _⟩ := Option.filter_eq_some_iff.1 hj
    exact h ⟨i, j, p, hij, hi, hj, hg⟩

/-- A sure fix changes the method it is about. -/
theorem sureFixes_locate (tree : Snapshot) (issues : List Issue) :
    (sureFixes tree issues).filterMap (locate? tree) = sureTargets tree [] issues := by
  refine List.filterMap_congr ?_
  intro fix hfix
  obtain ⟨hsure, issue, _, c, m, taken, hmade⟩ := mem_sureFixes hfix
  rw [hmade.located, hmade.target hsure]

/-- The sure fixes of a file collide exactly when they change a method twice. -/
theorem sureFixes_collide_iff {tree : Snapshot} (hw : tree.WellFormed)
    (hclasses : tree.classes.Pairwise fun c d => c.span.Apart d.span) (issues : List Issue) :
    ∃ r, reviseTree tree (sureFixes tree issues) = some r ∧
      ((∃ a b, r = .error (.overlappingEdits a b)) ↔ ReportedTwice tree issues) := by
  have happ : TouchesApart tree (sureFixes tree issues) := by
    intro c d hc hd hne
    have : Std.Symm fun c d : ClassDecl => c.span.Apart d.span := ⟨fun _ _ => Span.Apart.symm⟩
    exact hclasses.forall hc.mem_classes hd.mem_classes hne
  have htwice := sureTargets_nodup_iff tree issues
  obtain ⟨work, placed, r, _, hg, hr, hrev⟩ :=
    reviseTree_revised hw.spans_fit (sureFixes tree issues)
  obtain ⟨hmerge, _⟩ := hrev.of_mergeable hg.queued_mergeable
  refine ⟨r, hr, ?_⟩
  cases hrev with
  | refused c e hc hbad =>
    obtain ⟨line, rfl⟩ := refused_unmergeable (hw.classes c (hg.queued_mem hc)) hbad
    exact absurd rfl (hmerge line)
  | untouched hnone =>
    have hnil : sureTargets tree [] issues = [] := by
      rw [sureTargets, ← generateForTree, ← sureFixes, ← hg.targets, hnone]
      rfl
    have hnot : ¬ ReportedTwice tree issues := htwice.1 (by rw [hnil]; exact List.nodup_nil)
    simp [hnot]
  | edited spots hcls hspots =>
    have hfits := hg.edits_fit hw hcls hspots
    by_cases hone : (sureTargets tree [] issues).Nodup
    · obtain ⟨text, ht⟩ := Edit.applyAll_ok_of_apart hfits
        (hg.edits_apart hw happ hcls hspots hone)
      simp [ht, Except.map, htwice.1 hone]
    · have hcollide : ¬ (placed.map (·.2) ++ spots.map (·.2)).Pairwise Edit.Apart :=
        fun hap => hone (hg.targets_nodup hw (List.pairwise_append.1 hap).1)
      obtain ⟨a, b, ht⟩ := Edit.applyAll_overlap_of_not_apart hfits hcollide
      rw [ht]
      refine ⟨fun _ => ?_, fun _ => ⟨a, b, rfl⟩⟩
      exact Classical.byContradiction fun hnot => hone (htwice.2 hnot)

/-! ## The law -/

theorem generate_one_file {σ : Type} (store : Store σ) (files : σ) {tree : Snapshot}
    {file : String} {issues : List Issue} (hfile : ∀ i ∈ issues, i.file = file)
    (hload : store.load files file = .ok tree) :
    (generate store files issues).1 = generateForTree tree issues := by
  cases issues with
  | nil => rfl
  | cons i rest =>
    have hgroup : groupByFile Issue.file (i :: rest) = [(i.file, i :: rest)] := by
      apply groupByFile_of_same
      intro j hj
      rw [hfile i (by simp), hfile j (List.mem_cons_of_mem _ hj), Path.same_iff]
    unfold generate
    rw [hgroup, List.foldl_cons, List.foldl_nil, hfile i (by simp)]
    simp [hload]

/-- All that the built-in scanners find in a file. -/
def detected (catalog : Catalog) (tree : Snapshot) : List Issue :=
  (detectTree Scanner.defaults catalog tree).issues

/-- In a file whose classes stand side by side, the fixes of all findings collide exactly when
two of the findings lead to one method that goes each time, and exactly then two sure fixes are
about one method. -/
theorem a_file_defeats_itself_exactly_when_a_method_goes_twice {σ : Type} (store : Store σ)
    (files : σ) (tree : Snapshot) (catalog : Catalog) (hw : tree.WellFormed)
    (hclasses : tree.classes.Pairwise fun c d => c.span.Apart d.span)
    (hload : store.load files tree.path = .ok tree)
    (hpersist : ∀ file text a b,
      (store.persist files file text).2 ≠ some (.overlappingEdits a b)) :
    ∃ files' report,
      applyAll store files (generate store files (detected catalog tree)).1 =
        some (files', report) ∧
      ((∃ failure ∈ report.failed, ∃ a b, failure.error = .apply (.overlappingEdits a b)) ↔
        ReportedTwice tree (detected catalog tree)) ∧
      (¬ (((generate store files (detected catalog tree)).1.filter isAutoApplicable).filterMap
          (locate? tree)).Nodup ↔ ReportedTwice tree (detected catalog tree)) := by
  have hfile : ∀ i ∈ detected catalog tree, i.file = tree.path := fun i => detectTree_file
  rw [generate_one_file store files hfile hload]
  obtain ⟨r, hr, hiff⟩ := sureFixes_collide_iff hw hclasses (detected catalog tree)
  have hsame : ∀ i ∈ detected catalog tree, Path.same i.file tree.path = true := by
    intro i hi
    rw [hfile i hi, Path.same_iff]
  have hloads : ∀ i ∈ detected catalog tree, store.load files i.file = .ok tree := by
    intro i hi
    rw [hfile i hi]
    exact hload
  obtain ⟨files', report, happly, hrep⟩ := sureFixes_reported store files hsame hloads hr
  refine ⟨files', report, happly, ?_, ?_⟩
  · rw [← hiff]
    cases hrep with
    | refused path e he hfailed _ _ _ => simp [hfailed, he]
    | untouched revision he _ hfailed _ _ _ => simp [hfailed, he]
    | written path revision text he _ _ hfailed _ _ _ => simp [hfailed, he]
    | unwritten path revision text e he _ hp hfailed _ _ _ =>
      have hne : ∀ a b, e ≠ .overlappingEdits a b := by
        rintro a b rfl
        exact hpersist path text a b hp
      simp [hfailed, he, hne]
  · rw [← sureFixes, sureFixes_locate, sureTargets_nodup_iff]
    exact Classical.not_not

/-! ## Two classes on one line -/

def twinSource : Text :=
  ("class A \x7b componentWillMount() \x7b\x7d \x7d " ++
    "class B \x7b componentWillMount() \x7b\x7d \x7d").toList

/-- An empty method of the class that starts at `start`. -/
def twinMethod (start : Nat) : Method :=
  .onLine twinSource 1 0 (start + 10) (start + 33) "componentWillMount" []

def twinClass (name : String) (start : Nat) : ClassDecl :=
  ⟨some name, [twinMethod start], [], .onLine 1 0 (start + 8) (start + 35),
    .onLine 1 0 start (start + 35)⟩

/-- Two classes on one line, each with an empty method of the same name. -/
def twinTree : Snapshot :=
  { Snapshot.blank "A.jsx" .javaScript twinSource with
    classes := [twinClass "A" 0, twinClass "B" 36] }

def twinFiles : Memory := ⟨[⟨"A.jsx", twinSource, some twinTree⟩], []⟩

theorem twinTree_nodes : twinTree.nodes = twinTree.classes.map Node.ofClass := by
  unfold Snapshot.nodes
  rw [List.mergeSort_of_pairwise (by decide +kernel)]
  simp [twinTree, Snapshot.blank]

/-- The finding about the method of each class names the same line. -/
def twinIssue (start : Nat) : Issue :=
  .ofRule ⟨"componentWillMount", "16.3.0", none,
    "Move initialization to the constructor or side effects to componentDidMount", .warning, none⟩
    .lifecycleMethods "componentWillMount" "A.jsx" (twinMethod start).span
    "Deprecated LifeCycle Api componentWillMount"

theorem twins_reportedTwice : ReportedTwice twinTree (detected Catalog.react twinTree) := by
  have hlife : Scanner.lifecycleIssues twinTree Catalog.react = [twinIssue 0, twinIssue 36] := by
    unfold Scanner.lifecycleIssues
    rw [twinTree_nodes]
    decide +kernel
  have hsub : (Scanner.lifecycleIssues twinTree Catalog.react).Sublist
      (detected Catalog.react twinTree) := by
    unfold detected
    rw [detectTree_issues]
    exact List.sublist_append_left _ _
  rw [hlife] at hsub
  -- The second finding leads to the class that comes first.
  exact ⟨twinIssue 0, twinIssue 36, (twinClass "A" 0, twinMethod 0), hsub, by decide +kernel,
    by decide +kernel, by decide +kernel⟩

/-- The file with the two classes fails. -/
theorem twins_defeat_their_file :
    twinTree.WellFormed ∧ (twinTree.classes.Pairwise fun c d => c.span.Apart d.span) ∧
      Memory.store.load twinFiles twinTree.path = .ok twinTree ∧
      (∀ file text a b,
        (Memory.store.persist twinFiles file text).2 ≠ some (.overlappingEdits a b)) ∧
      ∃ files' report, applyAll Memory.store twinFiles
          (generate Memory.store twinFiles (detected Catalog.react twinTree)).1 =
            some (files', report) ∧
        ∃ failure ∈ report.failed, ∃ a b, failure.error = .apply (.overlappingEdits a b) := by
  have hwell : twinTree.WellFormed := by decide +kernel
  have hclasses : twinTree.classes.Pairwise fun c d => c.span.Apart d.span := by decide +kernel
  have hload : Memory.store.load twinFiles twinTree.path = .ok twinTree := by decide +kernel
  have hpersist : ∀ file text a b,
      (Memory.store.persist twinFiles file text).2 ≠ some (.overlappingEdits a b) := by
    intro file text a b
    simp only [Memory.store, Memory.persist]
    split <;> simp
  obtain ⟨files', report, happly, hiff, _⟩ :=
    a_file_defeats_itself_exactly_when_a_method_goes_twice Memory.store twinFiles twinTree
      Catalog.react hwell hclasses hload hpersist
  exact ⟨hwell, hclasses, hload, hpersist, files', report, happly, hiff.2 twins_reportedTwice⟩

end Uplift.Fix
