-- What the generator proposes. Every fix is made of one issue and is about the
-- method found for it. A sure fix removes an empty method, renames a method onto
-- a hook that is free, or moves state that was read off the method into a class
-- that can take it; everything else is left to a person.
import Uplift.Fix.Generate
import Uplift.Proofs.Snapshot.Spans

namespace Uplift.Fix

open Lifecycle (Pattern classify)
open State (Props)

/-! ## One fix -/

/-- The fix names the method, the file and the line, and keeps the method's text. -/
structure About (issue : Issue) (m : Method) (fix : Fix) : Prop where
  api : fix.api = m.name
  file : fix.file = issue.file
  line : fix.line = issue.line
  before : fix.before = m.text

/-- The hook that a rename of `m` takes. -/
def hookOf (c : ClassDecl) (m : Method) : Taken := (c.span.start, Rename.modernHook m.name)

/-- What can be decided about a method: the fix, and the hooks taken before and after it. -/
inductive Verdict (tree : Snapshot) (c : ClassDecl) (m : Method) (taken : List Taken)
    (fix : Fix) : List Taken → Prop
  | removed : classify m.name m.body = .empty → fix.kind = .remove → fix.confidence = .high →
      Verdict tree c m taken fix taken
  | renamed : hookOf c m ∉ taken → c.method? (Rename.modernHook m.name) = none →
      fix.kind = .rename → fix.confidence = .high →
      fix.after = Rename.renamedText m (Rename.modernHook m.name) →
      Verdict tree c m taken fix (taken ++ [hookOf c m])
  | moved (props : Props) : classify m.name m.body = .setStateOnly →
      State.extract? tree m = some props → Revise.isMergeable c = true →
      fix.kind = .moveToConstructor → fix.confidence = .high →
      fix.after = Revise.constructorPreview props → Verdict tree c m taken fix taken
  | reviewed : fix.kind = .manualReview → fix.confidence ≠ .high →
      Verdict tree c m taken fix taken

theorem about_about (issue : Issue) (m : Method) (pattern : Pattern) (kind : FixKind)
    (confidence : Confidence) (description : String) (after : Text) :
    About issue m (about issue m pattern kind confidence description after) :=
  ⟨rfl, rfl, rfl, rfl⟩

section

variable {tree : Snapshot} {issue : Issue} {c : ClassDecl} {m : Method}
  {taken taken' : List Taken} {fix : Fix}

theorem hookRename_verdict (tree : Snapshot) {pattern : Pattern}
    (h : hookRename issue c m pattern taken = (fix, taken')) :
    About issue m fix ∧ Verdict tree c m taken fix taken' := by
  unfold hookRename at h
  dsimp only at h
  split at h
  · obtain ⟨rfl, rfl⟩ := Prod.mk.inj h
    exact ⟨about_about .., .reviewed rfl (by simp [about])⟩
  · rename_i hfree
    obtain ⟨rfl, rfl⟩ := Prod.mk.inj h
    simp only [Bool.or_eq_true, not_or, Option.isSome_iff_ne_none, ne_eq, not_not,
      List.contains_iff_mem] at hfree
    exact ⟨about_about .., .renamed hfree.2 hfree.1 rfl rfl rfl⟩

theorem stateMove?_verdict (hp : classify m.name m.body = .setStateOnly)
    (h : stateMove? tree issue c m .setStateOnly = some fix) :
    About issue m fix ∧ Verdict tree c m taken fix taken := by
  unfold stateMove? at h
  simp only [Option.bind_eq_bind, Option.bind_eq_some_iff] at h
  obtain ⟨props, hx, h⟩ := h
  split at h
  · rename_i hmerge
    cases h
    exact ⟨about_about .., .moved props hp hx hmerge rfl rfl rfl⟩
  · cases h
    exact ⟨about_about .., .reviewed rfl (by simp [about])⟩

/-- A fix that is created is about its method, with one of the verdicts. -/
theorem create_verdict (h : create tree issue c m taken = (some fix, taken')) :
    About issue m fix ∧ Verdict tree c m taken fix taken' := by
  have hrename : ∀ pattern, (some (hookRename issue c m pattern taken).1,
      (hookRename issue c m pattern taken).2) = (some fix, taken') →
      About issue m fix ∧ Verdict tree c m taken fix taken' := by
    intro pattern he
    obtain ⟨h1, h2⟩ := Prod.mk.inj he
    exact hookRename_verdict tree (Prod.ext (Option.some.inj h1) h2)
  unfold create at h
  dsimp only at h
  split at h
  · rename_i hp
    obtain ⟨h1, rfl⟩ := Prod.mk.inj h
    cases h1
    exact ⟨about_about .., .removed hp rfl rfl⟩
  · exact hrename _ h
  · exact hrename _ h
  · exact hrename _ h
  · rename_i hp
    obtain ⟨h1, rfl⟩ := Prod.mk.inj h
    rw [hp] at h1
    exact stateMove?_verdict hp h1
  · obtain ⟨h1, rfl⟩ := Prod.mk.inj h
    cases h1
    exact ⟨⟨rfl, rfl, rfl, rfl⟩, .reviewed rfl (by simp [urgentReview, about])⟩
  · obtain ⟨h1, rfl⟩ := Prod.mk.inj h
    cases h1
    exact ⟨about_about .., .reviewed rfl (by simp [complexReview, about])⟩

/-- Where no fix is created no hook is taken. -/
theorem create_none (h : create tree issue c m taken = (none, taken')) : taken' = taken := by
  unfold create at h
  dsimp only at h
  split at h <;> simp_all

theorem Verdict.taken_subset (h : Verdict tree c m taken fix taken') : taken ⊆ taken' := by
  cases h with
  | removed | moved | reviewed => exact List.Subset.refl _
  | renamed => exact List.subset_append_left _ _

/-- The hooks that are taken only grow. -/
theorem taken_subset_create : taken ⊆ (create tree issue c m taken).2 := by
  cases h : create tree issue c m taken with
  | mk made taken' =>
    cases made with
    | none =>
      rw [create_none h]
      exact List.Subset.refl _
    | some fix => exact (create_verdict h).2.taken_subset

/-- A rename shows the renamed text, and the hook it takes was free. -/
theorem Verdict.of_rename (h : Verdict tree c m taken fix taken') (hk : fix.kind = .rename) :
    hookOf c m ∉ taken ∧ hookOf c m ∈ taken' ∧
      fix.after = Rename.renamedText m (Rename.modernHook m.name) := by
  cases h with
  | renamed hfree _ _ _ hafter => exact ⟨hfree, by simp, hafter⟩
  | removed _ hk' _ => simp [hk'] at hk
  | moved _ _ _ _ hk' _ _ => simp [hk'] at hk
  | reviewed hk' _ => simp [hk'] at hk

/-- A move is sure, and shows the state that was read off the method. -/
theorem Verdict.of_move (h : Verdict tree c m taken fix taken')
    (hk : fix.kind = .moveToConstructor) :
    fix.confidence = .high ∧ classify m.name m.body = .setStateOnly ∧
      Revise.isMergeable c = true ∧ ∃ props, State.extract? tree m = some props ∧
        fix.after = Revise.constructorPreview props := by
  cases h with
  | moved props hp hx hmerge _ hc hafter => exact ⟨hc, hp, hmerge, props, hx, hafter⟩
  | removed _ hk' _ => simp [hk'] at hk
  | renamed _ _ hk' _ _ => simp [hk'] at hk
  | reviewed hk' _ => simp [hk'] at hk

end

/-! ## All fixes of a file -/

/-- `fix` is made of `issue`, which is found at method `m` of class `c` when the hooks `taken`
are taken. -/
def MadeOf (tree : Snapshot) (issue : Issue) (c : ClassDecl) (m : Method) (taken : List Taken)
    (fix : Fix) : Prop :=
  tree.findMethod? issue.api issue.line = some (c, m) ∧
    (create tree issue c m taken).1 = some fix

theorem MadeOf.verdict {tree : Snapshot} {issue : Issue} {c : ClassDecl} {m : Method}
    {taken : List Taken} {fix : Fix} (h : MadeOf tree issue c m taken fix) :
    About issue m fix ∧ ∃ taken', Verdict tree c m taken fix taken' := by
  have hc : create tree issue c m taken = (some fix, (create tree issue c m taken).2) :=
    Prod.ext h.2 rfl
  obtain ⟨h1, h2⟩ := create_verdict hc
  exact ⟨h1, _, h2⟩

/-- Every fix is made of one of the issues, with the hooks that were taken before it. -/
theorem madeOf_of_mem {tree : Snapshot} {issues : List Issue} {taken : List Taken} {fix : Fix}
    (h : fix ∈ generateFrom tree taken issues) :
    ∃ issue ∈ issues, ∃ c m taken', taken ⊆ taken' ∧ MadeOf tree issue c m taken' fix := by
  induction issues generalizing taken with
  | nil => simp [generateFrom] at h
  | cons issue rest ih =>
    unfold generateFrom at h
    cases hf : tree.findMethod? issue.api issue.line with
    | none =>
      simp only [hf] at h
      obtain ⟨i, hi, hrest⟩ := ih h
      exact ⟨i, List.mem_cons_of_mem _ hi, hrest⟩
    | some p =>
      obtain ⟨c, m⟩ := p
      simp only [hf, List.mem_append, Option.mem_toList] at h
      rcases h with h | h
      · exact ⟨issue, by simp, c, m, taken, List.Subset.refl _, hf, h⟩
      · obtain ⟨i, hi, d, n, taken', hsub, hmade⟩ := ih h
        exact ⟨i, List.mem_cons_of_mem _ hi, d, n, taken',
          List.Subset.trans taken_subset_create hsub, hmade⟩

end Uplift.Fix
