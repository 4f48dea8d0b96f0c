-- Files do not disturb each other. What a batch plans for a file, the text that
-- is to be written or the failure that keeps it from being revised, is decided by
-- the file's own fixes and by what is stored of it. So is what becomes of the file,
-- if it is not written or no write stands in the way of another. The fixes of other
-- files may stand anywhere between its own, and may fail to load, to be edited or to
-- be written. Where room is short, a write can take what another file would have needed.
import Uplift.Proofs.Fix.Agreement
import Uplift.Proofs.Fix.Collisions
import Uplift.Proofs.Fix.Run
import Uplift.Proofs.Store.Apart

namespace Uplift.Fix

/-! ## The part of a batch that is about one file -/

/-- The fixes of a file, in order. -/
def fixesOf (file : String) (fixes : List Fix) : List Fix :=
  fixes.filter fun f => Path.same file f.file

theorem fixesOf_fixesOf (file : String) (fixes : List Fix) :
    fixesOf file (fixesOf file fixes) = fixesOf file fixes := by
  simp [fixesOf]

theorem sureGroups_fixesOf (file : String) (fixes : List Fix) :
    sureGroups (fixesOf file fixes) =
      (sureGroups fixes).filter fun g => Path.same file g.1 := by
  unfold sureGroups fixesOf
  rw [groupByFile_filter, List.filter_filter, List.filter_filter]
  congr 1
  exact List.filter_congr fun f _ => Bool.and_comm _ _

/-- What is picked for each item can be narrowed down before or after it is picked. -/
theorem filter_filterMap_of_key {α γ : Type} {pick : α → Option γ} {p : α → Bool} {q : γ → Bool}
    (h : ∀ a b, pick a = some b → q b = p a) (l : List α) :
    (l.filterMap pick).filter q = (l.filter p).filterMap pick := by
  rw [List.filter_filterMap, List.filterMap_filter]
  refine List.filterMap_congr fun a _ => ?_
  cases hb : pick a with
  | none => simp
  | some b => simp [Option.filter, h a b hb]

section

variable {σ β : Type} {store : Store σ} {stored : σ → List Path.Step → β} {s s' : σ} {file : String}

/-! ## Revisions -/

theorem reviseFile_congr (hreads : store.ReadsOneFile stored) {group : String × List Fix}
    (h : stored s (Path.steps group.1) = stored s' (Path.steps group.1)) :
    reviseFile store s group = reviseFile store s' group := by
  unfold reviseFile
  rw [hreads s s' group.1 h]

/-- What the revisions of a file give is decided by what is stored of it. -/
theorem filterMap_revisions_congr (hreads : store.ReadsOneFile stored)
    (h : stored s (Path.steps file) = stored s' (Path.steps file))
    (groups : List (String × List Fix)) :
    (groups.filter fun g => Path.same file g.1).filterMap (waiting? store s) =
        (groups.filter fun g => Path.same file g.1).filterMap (waiting? store s') ∧
      (groups.filter fun g => Path.same file g.1).filterMap (failure? store s) =
        (groups.filter fun g => Path.same file g.1).filterMap (failure? store s') := by
  have hrevise : ∀ g ∈ groups.filter fun g => Path.same file g.1,
      reviseFile store s g = reviseFile store s' g := by
    intro g hg
    have hfile := Path.same_iff.1 (List.mem_filter.1 hg).2
    exact reviseFile_congr hreads (by rwa [← hfile])
  constructor
  · refine List.filterMap_congr fun g hg => ?_
    unfold waiting? revision?
    rw [hrevise g hg]
  · refine List.filterMap_congr fun g hg => ?_
    unfold failure?
    rw [hrevise g hg]

theorem waiting_filter (file : String) (fixes : List Fix) :
    (waiting store s fixes).filter (fun p => Path.same file p.file) =
      ((sureGroups fixes).filter fun g => Path.same file g.1).filterMap (waiting? store s) :=
  filter_filterMap_of_key (fun g p hp => by rw [waiting?_file hp]) _

theorem failures_filter (file : String) (fixes : List Fix) :
    ((sureGroups fixes).filterMap (failure? store s)).filter (fun f => Path.same file f.file) =
      ((sureGroups fixes).filter fun g => Path.same file g.1).filterMap (failure? store s) :=
  filter_filterMap_of_key (fun g f hf => by rw [failure?_file hf]) _

/-- Two runs plan the same for a file: the text that it is to get, and the failure to load or to
edit it. -/
structure SamePlan (store : Store σ) (file : String) (s : σ) (fixes : List Fix) (s' : σ)
    (fixes' : List Fix) : Prop where
  waiting : (waiting store s fixes).filter (fun p => Path.same file p.file) =
    (waiting store s' fixes').filter fun p => Path.same file p.file
  failures :
    ((sureGroups fixes).filterMap (failure? store s)).filter (fun f => Path.same file f.file) =
      ((sureGroups fixes').filterMap (failure? store s')).filter fun f => Path.same file f.file

/-- Runs that agree on a file, on what is stored of it and on its fixes, plan the same for it. -/
theorem samePlan_of_agree (hreads : store.ReadsOneFile stored)
    (h : stored s (Path.steps file) = stored s' (Path.steps file)) {fixes fixes' : List Fix}
    (hfixes : fixesOf file fixes = fixesOf file fixes') :
    SamePlan store file s fixes s' fixes' := by
  have hgroups : (sureGroups fixes).filter (fun g => Path.same file g.1) =
      (sureGroups fixes').filter fun g => Path.same file g.1 := by
    rw [← sureGroups_fixesOf, ← sureGroups_fixesOf, hfixes]
  obtain ⟨hwaiting, hfailures⟩ := filterMap_revisions_congr hreads h (sureGroups fixes)
  constructor
  · rw [waiting_filter, waiting_filter, hwaiting, hgroups]
  · rw [failures_filter, failures_filter, hfailures, hgroups]

/-! ## Writes -/

/-- Writing many files does to one of them what writing that file alone does. If it is not
written at all, that needs nothing but that writes keep to their own files. -/
theorem writes_filter (hwrites : store.WritesOneFile stored)
    (h : stored s (Path.steps file) = stored s' (Path.steps file)) {pending : List PendingFile}
    (hfree : pending.filter (fun p => Path.same file p.file) = [] ∨ store.Uncontended stored) :
    (writes store s pending).filter (fun w => Path.same file w.1.file) =
        writes store s' (pending.filter fun p => Path.same file p.file) ∧
      stored (afterWrites store s pending) (Path.steps file) =
        stored (afterWrites store s' (pending.filter fun p => Path.same file p.file))
          (Path.steps file) := by
  induction pending generalizing s s' with
  | nil => exact ⟨rfl, h⟩
  | cons p rest ih =>
    by_cases hp : Path.same file p.file = true
    · have hsteps := Path.same_iff.1 hp
      have hkept : (p :: rest).filter (fun p => Path.same file p.file) =
          p :: rest.filter fun p => Path.same file p.file := by simp [hp]
      rw [hkept] at hfree
      have hfree : store.Uncontended stored := hfree.resolve_left (List.cons_ne_nil _ _)
      rw [hsteps] at h
      have hown : stored (store.persist s p.file p.contents).1 (Path.steps file) =
          stored (store.persist s' p.file p.contents).1 (Path.steps file) := by
        rw [hsteps]
        exact hfree.own s s' p.file p.contents h
      obtain ⟨hrest, hafter⟩ := ih hown (.inr hfree)
      rw [hkept]
      refine ⟨?_, hafter⟩
      simp only [writes, hp, List.filter_cons_of_pos, hrest,
        hfree.answer s s' p.file p.contents h]
    · have helse : stored (store.persist s p.file p.contents).1 (Path.steps file) =
          stored s' (Path.steps file) := by
        rw [hwrites s p.file p.contents (Path.steps file)
          fun he => hp (Path.same_iff.2 he.symm), h]
      have hleft : (p :: rest).filter (fun p => Path.same file p.file) =
          rest.filter fun p => Path.same file p.file := by simp [hp]
      rw [hleft] at hfree
      obtain ⟨hrest, hafter⟩ := ih helse hfree
      rw [hleft]
      refine ⟨?_, hafter⟩
      simp only [writes, hp, Bool.false_eq_true, not_false_eq_true, List.filter_cons_of_neg,
        hrest]

/-! ## The outcome of one file -/

/-- Two runs leave the same of a file, and report the same about it: whether it was written, or
the failure that kept it from being written. -/
structure SameOutcome (stored : σ → List Path.Step → β) (file : String)
    (a b : σ × ApplyReport) : Prop where
  stored : stored a.1 (Path.steps file) = stored b.1 (Path.steps file)
  succeeded : a.2.succeeded.filter (Path.same file) = b.2.succeeded.filter (Path.same file)
  failed : a.2.failed.filter (fun f => Path.same file f.file) =
    b.2.failed.filter fun f => Path.same file f.file

/-- Of the reports of writes, those of a file are decided by the writes of that file. -/
theorem filter_succeeded (file : String) (ws : List (PendingFile × Option ApplyError)) :
    (ws.filterMap succeeded?).filter (Path.same file) =
      (ws.filter fun w => Path.same file w.1.file).filterMap succeeded? := by
  refine filter_filterMap_of_key ?_ ws
  rintro ⟨p, answer⟩ path hpath
  cases answer with
  | none => rw [← Option.some.inj hpath]
  | some e => cases hpath

theorem filter_refused (file : String) (ws : List (PendingFile × Option ApplyError)) :
    (ws.filterMap refused?).filter (fun f => Path.same file f.file) =
      (ws.filter fun w => Path.same file w.1.file).filterMap refused? := by
  refine filter_filterMap_of_key ?_ ws
  rintro ⟨p, answer⟩ f hf
  cases answer with
  | none => cases hf
  | some e => rw [← Option.some.inj hf]

/-- Runs that agree on a file, on what is stored of it and on its fixes, do the same to it. -/
theorem sameOutcome_of_agree (hreads : store.ReadsOneFile stored)
    (hwrites : store.WritesOneFile stored)
    (h : stored s (Path.steps file) = stored s' (Path.steps file)) {fixes fixes' : List Fix}
    (hfixes : fixesOf file fixes = fixesOf file fixes')
    (hfree : (waiting store s fixes).filter (fun p => Path.same file p.file) = [] ∨
      store.Uncontended stored) :
    SameOutcome stored file
      (afterWrites store s (waiting store s fixes), batchReport store s fixes)
      (afterWrites store s' (waiting store s' fixes'), batchReport store s' fixes') := by
  obtain ⟨hpending, hfailures⟩ := samePlan_of_agree hreads h hfixes
  obtain ⟨hwritten, hafter⟩ := writes_filter hwrites h hfree
  rw [hpending] at hwritten hafter hfree
  obtain ⟨hwritten', hafter'⟩ := writes_filter hwrites
    (Eq.refl (stored s' (Path.steps file))) hfree
  have hsame : (batchWrites store s fixes).filter (fun w => Path.same file w.1.file) =
      (batchWrites store s' fixes').filter fun w => Path.same file w.1.file :=
    hwritten.trans hwritten'.symm
  refine ⟨hafter.trans hafter'.symm, ?_, ?_⟩
  · simp only [batchReport, filter_succeeded, hsame]
  · simp only [batchReport, List.filter_append, hfailures, filter_refused, hsame]

end

/-! ## The law -/

/-- What a batch plans for a file is what the fixes of that file plan by themselves. If no text
waits to be written to the file, or no write stands in the way of another, the batch also does to
the file what these do, and runs that agree on a file do the same to it whatever else they are
about. A batch has an answer exactly when the fixes of each file have one, and they have one where
the spans of the snapshots fit. -/
theorem a_batch_treats_each_file_by_itself {σ β : Type} (store : Store σ)
    (stored : σ → List Path.Step → β) (hreads : store.ReadsOneFile stored)
    (hwrites : store.WritesOneFile stored) (files : σ) (fixes : List Fix) :
    ((∀ f ∈ fixes, ∀ tree, store.load files f.file = .ok tree → tree.SpansFit) →
      (applyAll store files fixes).isSome = true) ∧
    ((applyAll store files fixes).isSome = true ↔
      ∀ file, (applyAll store files (fixesOf file fixes)).isSome = true) ∧
    (∀ file,
      SamePlan store file files fixes files (fixesOf file fixes) ∧
      ∀ files' fixes', stored files (Path.steps file) = stored files' (Path.steps file) →
        fixesOf file fixes = fixesOf file fixes' →
        SamePlan store file files fixes files' fixes') ∧
    ∀ file, ((waiting store files fixes).filter (fun p => Path.same file p.file) = [] ∨
        store.Uncontended stored) →
      ∀ result, applyAll store files fixes = some result →
      (∃ own, applyAll store files (fixesOf file fixes) = some own ∧
        SameOutcome stored file result own) ∧
      ∀ files' fixes' result', stored files (Path.steps file) = stored files' (Path.steps file) →
        fixesOf file fixes = fixesOf file fixes' →
        applyAll store files' fixes' = some result' → SameOutcome stored file result result' := by
  have hparts : (applyAll store files fixes).isSome = true ↔
      ∀ file, (applyAll store files (fixesOf file fixes)).isSome = true := by
    simp only [applyAll_isSome_iff, sureGroups_fixesOf, List.mem_filter]
    constructor
    · intro h file g hg
      exact h g hg.1
    · intro h g hg
      exact h g.1 g ⟨hg, Path.same_iff.2 rfl⟩
  refine ⟨applyAll_isSome, hparts, ?_, ?_⟩
  · intro file
    refine ⟨samePlan_of_agree hreads rfl (fixesOf_fixesOf file fixes).symm, ?_⟩
    intro files' fixes' hstored hfixes
    exact samePlan_of_agree hreads hstored hfixes
  · intro file hfree result hresult
    obtain ⟨_, rfl⟩ := applyAll_eq_some.1 hresult
    refine ⟨?_, ?_⟩
    · obtain ⟨own, hown⟩ := Option.isSome_iff_exists.1
        (hparts.1 (Option.isSome_iff_exists.2 ⟨_, hresult⟩) file)
      obtain ⟨_, rfl⟩ := applyAll_eq_some.1 hown
      exact ⟨_, hown,
        sameOutcome_of_agree hreads hwrites rfl (fixesOf_fixesOf file fixes).symm hfree⟩
    · intro files' fixes' result' hstored hfixes hresult'
      obtain ⟨_, rfl⟩ := applyAll_eq_some.1 hresult'
      exact sameOutcome_of_agree hreads hwrites hstored hfixes hfree

/-- The fixes of the sample, each after one of a file that is not there. -/
def straddledFixes : List Fix :=
  sampleFixes.flatMap fun f => [{ f with file := "Gone.jsx" }, f]

/-- The file that cannot be loaded changes nothing for the sample. -/
theorem sample_is_treated_by_itself :
    Memory.store.ReadsOneFile Memory.stored ∧ Memory.store.WritesOneFile Memory.stored ∧
      Memory.store.Uncontended Memory.stored ∧ fixesOf "A.jsx" straddledFixes = sampleFixes ∧
      ∃ result own, applyAll Memory.store sampleFiles straddledFixes = some result ∧
        applyAll Memory.store sampleFiles sampleFixes = some own ∧
        SameOutcome Memory.stored "A.jsx" result own := by
  have hown : fixesOf "A.jsx" straddledFixes = sampleFixes := by decide +kernel
  obtain ⟨hsome, _, _, hall⟩ := a_batch_treats_each_file_by_itself Memory.store Memory.stored
    Memory.store_readsOneFile Memory.store_writesOneFile sampleFiles straddledFixes
  have hfile : ∀ f ∈ straddledFixes, f.file = "A.jsx" ∨ f.file = "Gone.jsx" := by decide +kernel
  have hsample : Memory.store.load sampleFiles "A.jsx" = .ok Snapshot.sample := by decide +kernel
  have hgone : Memory.store.load sampleFiles "Gone.jsx" =
      .error (.unreadable "Gone.jsx" "entity not found") := by decide +kernel
  have hfit : ∀ f ∈ straddledFixes, ∀ tree,
      Memory.store.load sampleFiles f.file = .ok tree → tree.SpansFit := by
    intro f hf tree htree
    rcases hfile f hf with h | h
    · rw [h, hsample] at htree
      cases htree
      exact Snapshot.sample_wellFormed.spans_fit
    · rw [h, hgone] at htree
      cases htree
  obtain ⟨result, hresult⟩ := Option.isSome_iff_exists.1 (hsome hfit)
  obtain ⟨⟨own, happly, hsame⟩, _⟩ := hall "A.jsx" (.inr Memory.store_uncontended) result hresult
  rw [hown] at happly
  exact ⟨Memory.store_readsOneFile, Memory.store_writesOneFile, Memory.store_uncontended, hown,
    result, own, hresult, happly, hsame⟩

/-! ## Files that compete -/

/-- A class that has no constructor yet; its state makes it longer when it moves into one. -/
def growingTree (path : String) : Snapshot :=
  let source := ("class A \x7b\n" ++
    "  componentWillMount() \x7b this.setState(\x7b a: 1 \x7d); \x7d\n\x7d\n").toList
  let update : Statement := ⟨"this.setState(\x7b a: 1 \x7d);".toList, .onLine 2 10 35 59⟩
  { Snapshot.blank path .javaScript source with
    classes := [⟨some "A", [.onLine source 2 10 12 61 "componentWillMount" [update]], [],
      ⟨8, 63, 1, 9, 3⟩, ⟨0, 63, 1, 1, 3⟩⟩]
    calls := [⟨"this.setState", ["\x7b a: 1 \x7d".toList], .onLine 2 10 35 58⟩] }

/-- The same with a method that is said to go on behind the end of the source. -/
def misfitTree (path : String) : Snapshot :=
  let tree := growingTree path
  { tree with classes := tree.classes.map fun c =>
      { c with members := c.members.map fun m => { m with span := { m.span with stop := 1000 } } } }

/-- The files of some snapshots. -/
def filesOf (trees : List Snapshot) : Memory :=
  ⟨trees.map fun tree => ⟨tree.path, tree.source, some tree⟩, []⟩

/-- The move of the state in one file. -/
def growingFix (file : String) : Fix :=
  ⟨"componentWillMount", file, 2, .lifecycleMethods, .setStateOnly, "",
    "componentWillMount() \x7b this.setState(\x7b a: 1 \x7d); \x7d".toList, [],
    .moveToConstructor, .high, none⟩

def growingFixes : List Fix := [growingFix "A.jsx", growingFix "B.jsx"]

/-- The constructor that the class gets. -/
def grownConstructor : Edit :=
  .insert 9 ("\n  constructor(props) \x7b\n    super(props);\n" ++
    "    this.state = \x7ba: 1\x7d;\n  \x7d\n").toList

/-- The class with its constructor, and without the method. -/
def grownText : Text :=
  ("class A \x7b\n  constructor(props) \x7b\n    super(props);\n" ++
    "    this.state = \x7ba: 1\x7d;\n  \x7d\n\n\x7d\n").toList

/-- What the fix gathers in the class: its method goes, and the constructor comes. -/
theorem growing_work : ∀ file ∈ ["A.jsx", "B.jsx"],
    (([growingFix file].foldlM (addEdits (growingTree file)) {}).map fun work =>
      (work.edits, work.applied, work.stale)) = some ([.delete 10 62], 1, 0) ∧
    (([growingFix file].foldlM (addEdits (growingTree file)) {}).bind fun work =>
      stateEdits (growingTree file) work.states) = some (.ok [grownConstructor]) := by
  decide +kernel

theorem grownText_eq (file : String) :
    Edit.applyAll (growingTree file).source [.delete 10 62, grownConstructor] =
      .ok grownText := by
  have hafter : Edit.before (.delete 10 62) grownConstructor = false := by decide
  have hordered : [.delete 10 62, grownConstructor].mergeSort Edit.before =
      [grownConstructor, .delete 10 62] := by simp [List.mergeSort, hafter]
  have hsource : (growingTree file).source = (growingTree "A.jsx").source := rfl
  unfold Edit.applyAll
  rw [hordered, hsource]
  decide +kernel

theorem growingTree_revised {file : String} (hfile : file ∈ ["A.jsx", "B.jsx"]) :
    reviseTree (growingTree file) [growingFix file] = some (.ok ⟨some grownText, 1, 0⟩) := by
  obtain ⟨hwork, hstates⟩ := growing_work file hfile
  obtain ⟨⟨edits, states, applied, stale⟩, hrun, hfields⟩ := Option.map_eq_some_iff.1 hwork
  cases hfields
  rw [hrun, Option.bind_some] at hstates
  have hfirst : Revise.fitting ([growingFix file].foldlM (addEdits (growingTree file)) {}) =
      some (.ok ⟨[.delete 10 62], states, 1, 0⟩) := by
    rw [hrun]
    rfl
  unfold reviseTree
  rw [Revise.bind_ok hfirst, Revise.bind_ok hstates]
  simp only [List.singleton_append, List.isEmpty_cons, Bool.false_eq_true, if_false,
    grownText_eq]
  rfl

/-- Where the class is what is stored of a file, the revision of the file makes it grow. -/
theorem reviseFile_growing {σ : Type} {store : Store σ} {files : σ} {file : String}
    (hfile : file ∈ ["A.jsx", "B.jsx"]) (hload : store.load files file = .ok (growingTree file)) :
    reviseFile store files (file, [growingFix file]) = some (.ok ⟨some grownText, 1, 0⟩) := by
  unfold reviseFile
  simp only [hload, growingTree_revised hfile]

/-- A batch about files that all grow writes the class with its constructor to each of them. -/
theorem applyAll_growing {σ : Type} (store : Store σ) (files : σ) (fixes : List Fix)
    (paths : List String) (hpaths : paths ⊆ ["A.jsx", "B.jsx"])
    (hload : ∀ file ∈ paths, store.load files file = .ok (growingTree file))
    (hgroups : sureGroups fixes = paths.map fun file => (file, [growingFix file])) :
    ∃ result, applyAll store files fixes = some result ∧
      result.2.succeeded =
        (writes store files (paths.map fun file => ⟨file, grownText, 1⟩)).filterMap succeeded? := by
  have hrevise : ∀ file ∈ paths, reviseFile store files (file, [growingFix file]) =
      some (.ok ⟨some grownText, 1, 0⟩) := by
    intro file hfile
    exact reviseFile_growing (hpaths hfile) (hload file hfile)
  have hwaiting : waiting store files fixes = paths.map fun file => ⟨file, grownText, 1⟩ := by
    unfold waiting
    rw [hgroups, List.filterMap_map, ← List.filterMap_eq_map]
    refine List.filterMap_congr fun file hfile => ?_
    simp [waiting?, revision?, hrevise file hfile]
  refine ⟨_, applyAll_eq_some.2 ⟨?_, rfl⟩, ?_⟩
  · rw [hgroups, List.forall_mem_map]
    intro file hfile
    rw [hrevise file hfile]
    rfl
  · simp only [batchReport, batchWrites, hwaiting]

/-- Where there is room for one of the files to grow, the second is refused, and is written
without the first. Where the snapshot of a file does not fit, there is no answer for the other
file either. -/
theorem a_file_can_be_disturbed_by_another :
    ((Memory.storeWithin 150).ReadsOneFile Memory.stored ∧
      (Memory.storeWithin 150).WritesOneFile Memory.stored ∧
      ∃ result own,
        applyAll (Memory.storeWithin 150) (filesOf [growingTree "A.jsx", growingTree "B.jsx"])
          growingFixes = some result ∧
        applyAll (Memory.storeWithin 150) (filesOf [growingTree "A.jsx", growingTree "B.jsx"])
          (fixesOf "B.jsx" growingFixes) = some own ∧
        result.2.succeeded = ["A.jsx"] ∧ own.2.succeeded = ["B.jsx"] ∧
        ¬ SameOutcome Memory.stored "B.jsx" result own) ∧
    Memory.store.ReadsOneFile Memory.stored ∧ Memory.store.WritesOneFile Memory.stored ∧
      applyAll Memory.store (filesOf [growingTree "A.jsx", misfitTree "B.jsx"]) growingFixes =
        none ∧
      ∃ own,
        applyAll Memory.store (filesOf [growingTree "A.jsx", misfitTree "B.jsx"])
          (fixesOf "A.jsx" growingFixes) = some own ∧ own.2.succeeded = ["A.jsx"] := by
  refine ⟨⟨Memory.storeWithin_readsOneFile 150, Memory.storeWithin_writesOneFile 150, ?_⟩,
    Memory.store_readsOneFile, Memory.store_writesOneFile, ?_, ?_⟩
  · obtain ⟨result, hresult, hboth⟩ := applyAll_growing (Memory.storeWithin 150)
      (filesOf [growingTree "A.jsx", growingTree "B.jsx"]) growingFixes ["A.jsx", "B.jsx"]
      (List.Subset.refl _) (by decide +kernel) (by decide +kernel)
    obtain ⟨own, hown, halone⟩ := applyAll_growing (Memory.storeWithin 150)
      (filesOf [growingTree "A.jsx", growingTree "B.jsx"]) (fixesOf "B.jsx" growingFixes)
      ["B.jsx"] (by decide) (by decide +kernel) (by decide +kernel)
    have hfirst : result.2.succeeded = ["A.jsx"] := hboth.trans (by decide +kernel)
    have hsecond : own.2.succeeded = ["B.jsx"] := halone.trans (by decide +kernel)
    refine ⟨result, own, hresult, hown, hfirst, hsecond, ?_⟩
    intro hsame
    have hlists := hsame.succeeded
    rw [hfirst, hsecond] at hlists
    exact absurd hlists (by decide +kernel)
  · rw [← Option.not_isSome_iff_eq_none, applyAll_isSome_iff]
    intro hall
    exact absurd (hall ("B.jsx", [growingFix "B.jsx"]) (by decide +kernel)) (by decide +kernel)
  · obtain ⟨own, hown, hsucceeded⟩ := applyAll_growing Memory.store
      (filesOf [growingTree "A.jsx", misfitTree "B.jsx"]) (fixesOf "A.jsx" growingFixes)
      ["A.jsx"] (by decide) (by decide +kernel) (by decide +kernel)
    exact ⟨own, hown, hsucceeded.trans (by decide +kernel)⟩

end Uplift.Fix
