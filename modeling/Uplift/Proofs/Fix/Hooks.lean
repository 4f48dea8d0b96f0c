-- What holds of the fixes of a file as a whole. They follow the issues in order,
-- each about the method its issue leads to, and a fix is sure exactly when it
-- changes something. A hook is given away once: the hooks taken so far are those
-- of the renames made so far, and a rename takes one that its class lacks. So the
-- renames of a class put no hook beside another of the same name.
import Mathlib.Data.List.Forall2
import Uplift.Proofs.Fix.Agreement

namespace Uplift.Fix

/-! ## Fixes and their issues -/

/-- The fix is about the method that the issue leads to. -/
def Answers (tree : Snapshot) (fix : Fix) (issue : Issue) : Prop :=
  ∃ c m, tree.findMethod? issue.api issue.line = some (c, m) ∧
    locate? tree fix = some (c, m) ∧
    fix.api = m.name ∧ fix.line = m.line ∧ fix.before = m.text

theorem MadeOf.answers {tree : Snapshot} {issue : Issue} {c : ClassDecl} {m : Method}
    {taken : List Taken} {fix : Fix} (h : MadeOf tree issue c m taken fix) :
    Answers tree fix issue := by
  obtain ⟨habout, _⟩ := h.verdict
  obtain ⟨_, _, _, _, hline⟩ := Snapshot.findMethod?_eq_some h.1
  exact ⟨c, m, h.1, h.located, habout.api, habout.line.trans hline.symm, habout.before⟩

/-- The fixes answer some of the issues, one each and in order. -/
theorem generateFrom_answers (tree : Snapshot) (taken : List Taken) (issues : List Issue) :
    List.SublistForall₂ (Answers tree) (generateFrom tree taken issues) issues := by
  induction issues generalizing taken with
  | nil => exact .nil
  | cons issue rest ih =>
    unfold generateFrom
    cases hf : tree.findMethod? issue.api issue.line with
    | none => exact .cons_right (ih taken)
    | some p =>
      obtain ⟨c, m⟩ := p
      dsimp only
      cases hmade : (create tree issue c m taken).1 with
      | none => exact .cons_right (ih _)
      | some fix => exact .cons (MadeOf.answers ⟨hf, hmade⟩) (ih _)

theorem Verdict.sure_iff {tree : Snapshot} {c : ClassDecl} {m : Method}
    {taken taken' : List Taken} {fix : Fix} (h : Verdict tree c m taken fix taken') :
    fix.confidence = .high ↔
      fix.kind = .remove ∨ fix.kind = .moveToConstructor ∨ fix.kind = .rename := by
  cases h with
  | removed _ hk hc => simp [hk, hc]
  | renamed _ _ hk hc _ => simp [hk, hc]
  | moved _ _ _ _ hk hc _ => simp [hk, hc]
  | reviewed hk hc => simp [hk, hc]

/-! ## The hooks that renames take -/

/-- The method that a fix renames, with its class. -/
def renames? (tree : Snapshot) (fix : Fix) : Option (ClassDecl × Method) :=
  if fix.kind = .rename then locate? tree fix else none

/-- The methods that are renamed, in order. -/
def renamed (tree : Snapshot) (fixes : List Fix) : List (ClassDecl × Method) :=
  fixes.filterMap (renames? tree)

theorem generateFrom_none {tree : Snapshot} {taken : List Taken} {issue : Issue}
    {rest : List Issue} (hf : tree.findMethod? issue.api issue.line = none) :
    generateFrom tree taken (issue :: rest) = generateFrom tree taken rest := by
  rw [generateFrom, hf]

/-- What is picked from the fixes is picked from that of the first issue, and from the others. -/
theorem generateFrom_some {α : Type} (pick : Fix → Option α) {tree : Snapshot}
    {taken : List Taken} {issue : Issue} {rest : List Issue} {c : ClassDecl} {m : Method}
    (hf : tree.findMethod? issue.api issue.line = some (c, m)) :
    (generateFrom tree taken (issue :: rest)).filterMap pick =
      ((create tree issue c m taken).1.bind pick).toList ++
        (generateFrom tree (create tree issue c m taken).2 rest).filterMap pick := by
  rw [generateFrom, hf]
  dsimp only
  rw [List.filterMap_append]
  congr 1
  cases (create tree issue c m taken).1 with
  | none => rfl
  | some fix => cases hpick : pick fix <;> simp [hpick]

/-- A fix that was made renames nothing and takes no hook, or it takes a hook that was free and
that the class lacks. -/
theorem create_renames {tree : Snapshot} {issue : Issue} {c : ClassDecl} {m : Method}
    {taken : List Taken} {fix : Fix} (h : MadeOf tree issue c m taken fix) :
    (renames? tree fix = none ∧ (create tree issue c m taken).2 = taken) ∨
      (renames? tree fix = some (c, m) ∧
        (create tree issue c m taken).2 = taken ++ [hookOf c m] ∧
        hookOf c m ∉ taken ∧ c.method? (Rename.modernHook m.name) = none) := by
  have hmade : create tree issue c m taken = (some fix, (create tree issue c m taken).2) :=
    Prod.ext h.2 rfl
  have hlocated := h.located
  obtain ⟨_, hv⟩ := create_verdict hmade
  generalize (create tree issue c m taken).2 = taken' at hv ⊢
  cases hv with
  | removed _ hk _ => exact Or.inl ⟨by simp [renames?, hk], rfl⟩
  | renamed hfree hlacks hk _ _ =>
    exact Or.inr ⟨by simp [renames?, hk, hlocated], rfl, hfree, hlacks⟩
  | moved _ _ _ _ hk _ _ => exact Or.inl ⟨by simp [renames?, hk], rfl⟩
  | reviewed hk _ => exact Or.inl ⟨by simp [renames?, hk], rfl⟩

/-- No hook is taken twice, and none that was taken before. -/
theorem renamed_hooks_nodup (tree : Snapshot) (taken : List Taken) (issues : List Issue) :
    ((renamed tree (generateFrom tree taken issues)).map fun p => hookOf p.1 p.2).Nodup ∧
      ∀ p ∈ renamed tree (generateFrom tree taken issues), hookOf p.1 p.2 ∉ taken := by
  unfold renamed
  induction issues generalizing taken with
  | nil => exact ⟨List.nodup_nil, by simp [generateFrom]⟩
  | cons issue rest ih =>
    cases hf : tree.findMethod? issue.api issue.line with
    | none =>
      rw [generateFrom_none hf]
      exact ih taken
    | some p =>
      obtain ⟨c, m⟩ := p
      rw [generateFrom_some _ hf]
      cases hmade : (create tree issue c m taken).1 with
      | none =>
        have htaken : (create tree issue c m taken).2 = taken := create_none (Prod.ext hmade rfl)
        rw [htaken]
        exact ih taken
      | some fix =>
        rw [Option.bind_some]
        rcases create_renames ⟨hf, hmade⟩ with ⟨hr, htaken⟩ | ⟨hr, htaken, hfree, _⟩
        · rw [htaken, hr]
          exact ih taken
        · -- What comes later finds the hook among those that are taken.
          obtain ⟨hnodup, hlater⟩ := ih (taken ++ [hookOf c m])
          rw [htaken, hr, Option.toList_some, List.singleton_append, List.map_cons,
            List.nodup_cons]
          refine ⟨⟨?_, hnodup⟩, ?_⟩
          · intro hmem
            obtain ⟨q, hq, heq⟩ := List.mem_map.1 hmem
            exact hlater q hq (by simp [heq])
          · intro q hq
            rcases List.mem_cons.1 hq with rfl | hq
            · exact hfree
            · exact fun hmem => hlater q hq (List.mem_append_left _ hmem)

theorem modernHook_ne_constructor (name : String) : Rename.modernHook name ≠ "constructor" := by
  unfold Rename.modernHook
  split <;> decide

/-- A class that has no method of a hook's name has no member of that name. -/
theorem hook_not_member {c : ClassDecl} {name : String}
    (h : c.method? (Rename.modernHook name) = none) :
    Rename.modernHook name ∉ c.members.map (·.name) := by
  intro hmem
  obtain ⟨m, hm, hname⟩ := List.mem_map.1 hmem
  have hmethod : m ∈ c.methods := by
    refine List.mem_filter.2 ⟨hm, ?_⟩
    simp [Method.isConstructor, hname, modernHook_ne_constructor]
  have hno := List.find?_eq_none.1 h m hmethod
  simp [hname] at hno

theorem mem_renamed {tree : Snapshot} {issues : List Issue} {p : ClassDecl × Method}
    (h : p ∈ renamed tree (generateForTree tree issues)) :
    Rename.modernHook p.2.name ∉ p.1.members.map (·.name) := by
  obtain ⟨fix, hfix, hr⟩ := List.mem_filterMap.1 h
  obtain ⟨issue, _, c, m, taken, _, hmade⟩ := madeOf_of_mem hfix
  rcases create_renames hmade with ⟨hr', _⟩ | ⟨hr', _, _, hlacks⟩
  · rw [hr'] at hr
    cases hr
  · rw [hr'] at hr
    cases hr
    exact hook_not_member hlacks

/-! ## The names of a class after its renames -/

/-- What becomes of names when methods are renamed, one after the other. -/
def namesAfter (names : List String) (ms : List Method) : List String :=
  ms.foldl (fun names m => names.erase m.name ++ [Rename.modernHook m.name]) names

/-- A name is there at most as often as before and once more for each rename onto it. -/
theorem count_namesAfter_le (names : List String) (ms : List Method) (hook : String) :
    (namesAfter names ms).count hook ≤
      names.count hook + (ms.filter fun m => Rename.modernHook m.name = hook).length := by
  unfold namesAfter
  induction ms generalizing names with
  | nil => simp
  | cons m rest ih =>
    have hrest := ih (names.erase m.name ++ [Rename.modernHook m.name])
    have herase := (List.erase_sublist (a := m.name) (l := names)).count_le hook
    rw [List.foldl_cons]
    by_cases hm : Rename.modernHook m.name = hook
    · simp only [List.count_append, hm, List.count_singleton_self] at hrest
      simp only [hm, decide_true, List.filter_cons_of_pos, List.length_cons]
      omega
    · simp only [List.count_append, List.count_singleton, beq_iff_eq, hm, if_false] at hrest
      simp only [hm, decide_false, Bool.false_eq_true, not_false_eq_true, List.filter_cons_of_neg]
      omega

/-- The methods of a class that are renamed. -/
def renamedIn (tree : Snapshot) (fixes : List Fix) (c : ClassDecl) : List Method :=
  ((renamed tree fixes).filter fun p => p.1 = c).map (·.2)

/-- A hook goes to one method of a class at most. -/
theorem renamedIn_onto_le_one (tree : Snapshot) (issues : List Issue) (c : ClassDecl)
    (hook : String) :
    ((renamedIn tree (generateForTree tree issues) c).filter
      fun m => Rename.modernHook m.name = hook).length ≤ 1 := by
  obtain ⟨hnodup, _⟩ := renamed_hooks_nodup tree [] issues
  have hcount := List.nodup_iff_count.1 hnodup (c.span.start, hook)
  rw [List.count_eq_countP, List.countP_map] at hcount
  rw [← List.countP_eq_length_filter, renamedIn, List.countP_map, List.countP_filter]
  refine Nat.le_trans (List.countP_mono_left fun p _ hp => ?_) hcount
  simp only [Function.comp_apply, Bool.and_eq_true, decide_eq_true_eq] at hp
  simp [hookOf, hp.1, hp.2]

/-- The renames of a class give no hook to a class that has it, nor give it twice. -/
theorem count_hook_le (tree : Snapshot) (issues : List Issue) (c : ClassDecl) (hook : String) :
    (namesAfter (c.members.map (·.name))
        (renamedIn tree (generateForTree tree issues) c)).count hook ≤
      max 1 ((c.members.map (·.name)).count hook) := by
  have hcount := count_namesAfter_le (c.members.map (·.name))
    (renamedIn tree (generateForTree tree issues) c) hook
  have hone := renamedIn_onto_le_one tree issues c hook
  by_cases hnone : (renamedIn tree (generateForTree tree issues) c).filter
      (fun m => Rename.modernHook m.name = hook) = []
  · rw [hnone, List.length_nil] at hcount
    omega
  · obtain ⟨m, hm⟩ := List.exists_mem_of_ne_nil _ hnone
    obtain ⟨hm, hhook⟩ := List.mem_filter.1 hm
    obtain ⟨p, hp, rfl⟩ := List.mem_map.1 hm
    obtain ⟨hp, hc⟩ := List.mem_filter.1 hp
    have hlacks := mem_renamed hp
    rw [of_decide_eq_true hc, of_decide_eq_true hhook] at hlacks
    have hzero := List.count_eq_zero.2 hlacks
    omega

/-! ## The law -/

/-- The fixes of a file answer some of its issues, one each and in order. A fix is sure exactly
when it removes, moves or renames. No two renames take one hook of a class, and none takes a
hook that its class has already; so the renames leave no class with more methods of a name than
one, or than it had. -/
theorem generated_fixes_follow_their_issues (tree : Snapshot) (issues : List Issue) :
    List.SublistForall₂ (Answers tree) (generateForTree tree issues) issues ∧
    (∀ fix ∈ generateForTree tree issues, fix.confidence = .high ↔
      fix.kind = .remove ∨ fix.kind = .moveToConstructor ∨ fix.kind = .rename) ∧
    ((renamed tree (generateForTree tree issues)).map fun p => hookOf p.1 p.2).Nodup ∧
    (∀ fix ∈ generateForTree tree issues, fix.kind = .rename →
      ∃ c m, locate? tree fix = some (c, m) ∧
        Rename.modernHook m.name ∉ c.members.map (·.name)) ∧
    ∀ c hook, (namesAfter (c.members.map (·.name))
        (renamedIn tree (generateForTree tree issues) c)).count hook ≤
      max 1 ((c.members.map (·.name)).count hook) := by
  refine ⟨generateFrom_answers tree [] issues, ?_, (renamed_hooks_nodup tree [] issues).1, ?_,
    count_hook_le tree issues⟩
  · intro fix hfix
    obtain ⟨issue, _, c, m, taken, _, hmade⟩ := madeOf_of_mem hfix
    obtain ⟨_, _, hv⟩ := hmade.verdict
    exact hv.sure_iff
  · intro fix hfix hk
    obtain ⟨issue, _, c, m, taken, _, hmade⟩ := madeOf_of_mem hfix
    have hr : renames? tree fix = some (c, m) := by simp [renames?, hk, hmade.located]
    exact ⟨c, m, hmade.located, mem_renamed (List.mem_filterMap.2 ⟨fix, hfix, hr⟩)⟩

end Uplift.Fix
