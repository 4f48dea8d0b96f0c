-- What a run of the scanners over one file finds. The findings are those of
-- each scanner in turn, and every finding of the built-in scanners names the
-- file it was found in.
import Uplift.Detect.Run

namespace Uplift

/-! ## One scanner after the other -/

theorem foldl_run (scanners : List Scanner) (catalog : Catalog) (tree : Snapshot)
    (found : Findings) :
    scanners.foldl (fun found s => found ++ s.run tree catalog) found =
      ⟨found.issues ++ scanners.flatMap fun s => (s.run tree catalog).issues,
        found.errors ++ scanners.flatMap fun s => (s.run tree catalog).errors⟩ := by
  induction scanners generalizing found with
  | nil => simp
  | cons s rest ih =>
    rw [List.foldl_cons, ih, List.flatMap_cons, List.flatMap_cons, ← List.append_assoc,
      ← List.append_assoc]
    rfl

theorem detectTree_issues (scanners : List Scanner) (catalog : Catalog) (tree : Snapshot) :
    (detectTree scanners catalog tree).issues =
      scanners.flatMap fun s => (s.run tree catalog).issues := by
  rw [detectTree, foldl_run]
  rfl

theorem detectTree_errors (scanners : List Scanner) (catalog : Catalog) (tree : Snapshot) :
    (detectTree scanners catalog tree).errors =
      scanners.flatMap fun s => (s.run tree catalog).errors := by
  rw [detectTree, foldl_run]
  rfl

/-! ## Findings name their file -/

namespace Scanner

/-- All findings of the scanner are about the file it was run on. -/
def NamesFile (s : Scanner) : Prop :=
  ∀ tree catalog, ∀ issue ∈ (s.run tree catalog).issues, issue.file = tree.path

/-- A scanner that gives a list has the findings of that list. -/
theorem namesFile_of_scan {s : Scanner} {f : Snapshot → Catalog → List Issue}
    (hs : ∀ tree catalog, s.scan tree catalog = .ok (f tree catalog))
    (hf : ∀ tree catalog, ∀ issue ∈ f tree catalog, issue.file = tree.path) : s.NamesFile := by
  intro tree catalog issue hi
  unfold run at hi
  rw [hs tree catalog] at hi
  exact hf tree catalog issue hi

theorem namesFile_withPrimary {id : String} {category : Category}
    {f : Snapshot → Rule → List Issue}
    (hf : ∀ tree rule, ∀ issue ∈ f tree rule, issue.file = tree.path) :
    NamesFile ⟨id, withPrimary category f⟩ := by
  apply namesFile_of_scan (fun _ _ => rfl)
  intro tree catalog issue hi
  cases hp : catalog.primary? category with
  | none => simp [hp] at hi
  | some rule =>
    rw [hp] at hi
    exact hf tree rule issue hi

theorem lifecycleIssues_file {tree : Snapshot} {catalog : Catalog} {issue : Issue}
    (h : issue ∈ lifecycleIssues tree catalog) : issue.file = tree.path := by
  unfold lifecycleIssues at h
  obtain ⟨node, _, h⟩ := List.mem_flatMap.1 h
  cases node with
  | ofClass c =>
    obtain ⟨m, _, h⟩ := List.mem_filterMap.1 h
    obtain ⟨rule, _, rfl⟩ := Option.map_eq_some_iff.1 h
    rfl
  | _ => cases h

theorem refIssue?_file {tree : Snapshot} {rule : Rule} {node : Node} {issue : Issue}
    (h : refIssue? tree rule node = some issue) : issue.file = tree.path := by
  cases node with
  | ofElement e =>
    simp only [refIssue?, Option.bind_eq_bind, Option.bind_eq_some_iff] at h
    obtain ⟨attr, _, h⟩ := h
    split at h
    · cases h
      rfl
    · cases h
  | ofMember m =>
    simp only [refIssue?, Option.ite_none_right_eq_some] at h
    cases h.2
    rfl
  | _ => cases h

theorem contextIssues_file {tree : Snapshot} {rule : Rule} {node : Node} {issue : Issue}
    (h : issue ∈ contextIssues tree rule node) : issue.file = tree.path := by
  cases node with
  | ofClass c =>
    obtain ⟨part, _, rfl⟩ := List.mem_map.1 h
    rfl
  | _ => cases h

theorem findDomNodeIssue?_file {tree : Snapshot} {rule : Rule} {node : Node} {issue : Issue}
    (h : findDomNodeIssue? tree rule node = some issue) : issue.file = tree.path := by
  cases node with
  | ofCall c =>
    simp only [findDomNodeIssue?, Option.ite_none_right_eq_some] at h
    cases h.2
    rfl
  | _ => cases h

theorem renderIssues_file {tree : Snapshot} {rules : List Rule} {node : Node} {issue : Issue}
    (h : issue ∈ renderIssues tree rules node) : issue.file = tree.path := by
  cases node with
  | ofCall c =>
    obtain ⟨rule, _, h⟩ := List.mem_filterMap.1 h
    simp only [Option.bind_eq_bind, Option.bind_eq_some_iff, Option.ite_none_right_eq_some] at h
    obtain ⟨suffix, _, _, h⟩ := h
    cases h
    rfl
  | _ => cases h

theorem factoryIssue?_file {tree : Snapshot} {catalog : Catalog} {node : Node} {issue : Issue}
    (h : factoryIssue? tree catalog node = some issue) : issue.file = tree.path := by
  cases node with
  | ofCall c =>
    simp only [factoryIssue?, Option.ite_none_right_eq_some, Option.map_eq_some_iff] at h
    obtain ⟨_, rule, _, rfl⟩ := h
    rfl
  | _ => cases h

theorem defaultPropsIssue?_file {tree : Snapshot} {rule : Rule} {node : Node} {issue : Issue}
    (h : defaultPropsIssue? tree rule node = some issue) : issue.file = tree.path := by
  cases node with
  | ofAssignment a =>
    simp only [defaultPropsIssue?, Option.ite_none_right_eq_some] at h
    cases h.2
    rfl
  | _ => cases h

theorem importIssues_file {tree : Snapshot} {rules : List Rule} {node : Node} {issue : Issue}
    (h : issue ∈ importIssues tree rules node) : issue.file = tree.path := by
  cases node with
  | ofImport i =>
    obtain ⟨rule, _, h⟩ := List.mem_filterMap.1 h
    simp only [Option.bind_eq_bind, Option.bind_eq_some_iff, Option.ite_none_right_eq_some] at h
    obtain ⟨fragment, _, _, h⟩ := h
    cases h
    rfl
  | _ => cases h

/-- Findings made node by node name the file if those of each node do. -/
theorem mem_filterMap_file {tree : Snapshot} {f : Node → Option Issue}
    (hf : ∀ node issue, f node = some issue → issue.file = tree.path) :
    ∀ issue ∈ tree.nodes.filterMap f, issue.file = tree.path := by
  intro issue hi
  obtain ⟨node, _, h⟩ := List.mem_filterMap.1 hi
  exact hf node issue h

theorem mem_flatMap_file {tree : Snapshot} {f : Node → List Issue}
    (hf : ∀ node, ∀ issue ∈ f node, issue.file = tree.path) :
    ∀ issue ∈ tree.nodes.flatMap f, issue.file = tree.path := by
  intro issue hi
  obtain ⟨node, _, h⟩ := List.mem_flatMap.1 hi
  exact hf node issue h

theorem defaults_nameFile : ∀ s ∈ defaults, s.NamesFile := by
  intro s hs
  simp only [defaults, List.mem_cons, List.not_mem_nil, or_false] at hs
  rcases hs with rfl | rfl | rfl | rfl | rfl | rfl | rfl | rfl
  · exact namesFile_of_scan (fun _ _ => rfl) (fun _ _ _ => lifecycleIssues_file)
  · exact namesFile_withPrimary (fun _ _ => mem_filterMap_file (fun _ _ => refIssue?_file))
  · exact namesFile_withPrimary (fun _ _ => mem_flatMap_file (fun _ _ => contextIssues_file))
  · exact namesFile_withPrimary (fun _ _ => mem_filterMap_file (fun _ _ => findDomNodeIssue?_file))
  · exact namesFile_of_scan (fun _ _ => rfl)
      (fun _ _ => mem_flatMap_file (fun _ _ => renderIssues_file))
  · exact namesFile_of_scan (fun _ _ => rfl)
      (fun _ _ => mem_filterMap_file (fun _ _ => factoryIssue?_file))
  · exact namesFile_withPrimary
      (fun _ _ => mem_filterMap_file (fun _ _ => defaultPropsIssue?_file))
  · exact namesFile_of_scan (fun _ _ => rfl)
      (fun _ _ => mem_flatMap_file (fun _ _ => importIssues_file))

end Scanner

theorem detectTree_file {catalog : Catalog} {tree : Snapshot} {issue : Issue}
    (h : issue ∈ (detectTree Scanner.defaults catalog tree).issues) : issue.file = tree.path := by
  rw [detectTree_issues] at h
  obtain ⟨s, hs, h⟩ := List.mem_flatMap.1 h
  exact Scanner.defaults_nameFile s hs tree catalog issue h

end Uplift
