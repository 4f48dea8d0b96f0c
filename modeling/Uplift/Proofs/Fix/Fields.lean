-- Fields that a sure fix overrides. State that moves into the constructor is
-- assigned after the fields of the class, and a hook on the prototype stays hidden
-- behind a field of its name. Neither is looked for: a move asks for the state of
-- the constructor and a rename for the methods of the class. So a field is
-- overridden exactly when a method moves or is the first to take its hook, in a
-- class that has such a field.
import Uplift.Proofs.Fix.Hooks

namespace Uplift

/-- The instances of the class have a field of that name. -/
def ClassDecl.hasField (c : ClassDecl) (name : String) : Bool :=
  c.properties.any fun p => !p.isStatic && p.name == name

namespace Fix

open Lifecycle (classify)

/-! ## What the methods that issues lead to are good for -/

/-- The methods that the issues lead to, in order. -/
def found (tree : Snapshot) (issues : List Issue) : List (ClassDecl × Method) :=
  issues.filterMap fun i => tree.findMethod? i.api i.line

theorem found_none {tree : Snapshot} {issue : Issue} {rest : List Issue}
    (h : tree.findMethod? issue.api issue.line = none) :
    found tree (issue :: rest) = found tree rest := by
  simp [found, h]

theorem found_some {tree : Snapshot} {issue : Issue} {rest : List Issue}
    {p : ClassDecl × Method} (h : tree.findMethod? issue.api issue.line = some p) :
    found tree (issue :: rest) = p :: found tree rest := by
  simp [found, h]

/-- The method can be renamed onto its hook, as long as the hook is free. -/
def takesHook (p : ClassDecl × Method) : Bool :=
  match classify p.2.name p.2.body with
  | .async | .simpleLogging | .simpleSideEffect =>
    (p.1.method? (Rename.modernHook p.2.name)).isNone
  | _ => false

/-- The method sets state that its class can take. -/
def movesState (tree : Snapshot) (p : ClassDecl × Method) : Bool :=
  match classify p.2.name p.2.body with
  | .setStateOnly => (State.extract? tree p.2).isSome && Revise.isMergeable p.1
  | _ => false

/-- The method whose state a fix moves, with its class. -/
def moves? (tree : Snapshot) (fix : Fix) : Option (ClassDecl × Method) :=
  if fix.kind = .moveToConstructor then locate? tree fix else none

section

variable {tree : Snapshot} {issue : Issue} {c : ClassDecl} {m : Method} {taken : List Taken}

theorem hookRename_taken (pattern : Lifecycle.Pattern) :
    (hookRename issue c m pattern taken).2 =
      if (c.method? (Rename.modernHook m.name)).isNone && !taken.contains (hookOf c m) then
        taken ++ [hookOf c m]
      else taken := by
  unfold hookRename hookOf
  dsimp only
  cases c.method? (Rename.modernHook m.name) with
  | some _ => rfl
  | none => cases taken.contains (c.span.start, Rename.modernHook m.name) <;> rfl

/-- A hook is taken exactly when the method can take it and it is free. -/
theorem create_taken (tree : Snapshot) (issue : Issue) (c : ClassDecl) (m : Method)
    (taken : List Taken) :
    (create tree issue c m taken).2 =
      if takesHook (c, m) && !taken.contains (hookOf c m) then taken ++ [hookOf c m] else taken := by
  unfold create takesHook
  cases hp : classify m.name m.body with
  | async | simpleLogging | simpleSideEffect =>
    exact hookRename_taken _
  | empty | setStateOnly | unsafePrefix | complex => rfl

/-- The method is renamed exactly when its hook is taken. -/
theorem create_takes (hf : tree.findMethod? issue.api issue.line = some (c, m)) :
    (create tree issue c m taken).1.bind (renames? tree) =
      if takesHook (c, m) && !taken.contains (hookOf c m) then some (c, m) else none := by
  have htaken := create_taken tree issue c m taken
  cases hmade : (create tree issue c m taken).1 with
  | none =>
    have hkept : (create tree issue c m taken).2 = taken := create_none (Prod.ext hmade rfl)
    split at htaken
    · simp [hkept] at htaken
    · rw [if_neg ‹_›]
      rfl
  | some fix =>
    rcases create_renames ⟨hf, hmade⟩ with ⟨hr, hkept⟩ | ⟨hr, hadded, _, _⟩
    · split at htaken
      · simp [hkept] at htaken
      · rw [if_neg ‹_›]
        exact hr
    · split at htaken
      · rw [if_pos ‹_›]
        exact hr
      · simp [hadded] at htaken

/-- The state of a method is moved exactly when the class can take it. -/
theorem create_moves (hf : tree.findMethod? issue.api issue.line = some (c, m)) :
    (create tree issue c m taken).1.bind (moves? tree) =
      if movesState tree (c, m) then some (c, m) else none := by
  cases hmoves : movesState tree (c, m) with
  | true =>
    unfold movesState at hmoves
    split at hmoves
    · rename_i hp
      simp only [Bool.and_eq_true, Option.isSome_iff_exists] at hmoves
      obtain ⟨⟨props, hx⟩, hmerge⟩ := hmoves
      have hmade : (create tree issue c m taken).1 =
          some (about issue m .setStateOnly .moveToConstructor .high
            s!"Move state initialization from {m.name} into the constructor"
            (Revise.constructorPreview props)) := by
        simp [create, hp, stateMove?, hx, hmerge]
      have hlocated := MadeOf.located ⟨hf, hmade⟩
      rw [hmade]
      exact hlocated
    · cases hmoves
  | false =>
    cases hmade : (create tree issue c m taken).1 with
    | none => rfl
    | some fix =>
      have hother : fix.kind ≠ .moveToConstructor := by
        intro hk
        obtain ⟨_, _, hv⟩ := MadeOf.verdict ⟨hf, hmade⟩
        obtain ⟨_, hp, hmerge, props, hx, _⟩ := hv.of_move hk
        simp [movesState, hp, hmerge, hx] at hmoves
      simp [moves?, hother]

end

/-! ## The methods that are moved and those that are renamed -/

/-- Every method with state to move is moved. -/
theorem moved_eq (tree : Snapshot) (taken : List Taken) (issues : List Issue) :
    (generateFrom tree taken issues).filterMap (moves? tree) =
      (found tree issues).filter (movesState tree) := by
  induction issues generalizing taken with
  | nil => rfl
  | cons issue rest ih =>
    cases hf : tree.findMethod? issue.api issue.line with
    | none =>
      rw [generateFrom_none hf, found_none hf]
      exact ih taken
    | some p =>
      obtain ⟨c, m⟩ := p
      rw [generateFrom_some _ hf, create_moves hf, ih, found_some hf]
      cases hmoves : movesState tree (c, m) <;> simp [hmoves]

/-- The methods that are renamed are the first that can take a hook that was free. -/
theorem mem_renamed_iff (tree : Snapshot) (taken : List Taken) (issues : List Issue)
    (p : ClassDecl × Method) :
    p ∈ renamed tree (generateFrom tree taken issues) ↔
      hookOf p.1 p.2 ∉ taken ∧ ((found tree issues).filter takesHook).find?
        (fun q => hookOf q.1 q.2 = hookOf p.1 p.2) = some p := by
  unfold renamed
  induction issues generalizing taken with
  | nil => simp [generateFrom, found]
  | cons issue rest ih =>
    cases hf : tree.findMethod? issue.api issue.line with
    | none =>
      rw [generateFrom_none hf, found_none hf]
      exact ih taken
    | some q =>
      obtain ⟨c, m⟩ := q
      rw [generateFrom_some _ hf, create_takes hf, create_taken, found_some hf]
      cases htakes : takesHook (c, m) with
      | false => simpa [htakes] using ih taken
      | true =>
        rw [List.filter_cons_of_pos htakes, List.find?_cons]
        by_cases hgone : hookOf c m ∈ taken
        · simp only [List.contains_iff_mem.2 hgone, Bool.not_true, Bool.and_false,
            Bool.false_eq_true, if_false, Option.toList_none, List.nil_append, ih]
          refine and_congr_right fun hp => ?_
          have hother : hookOf c m ≠ hookOf p.1 p.2 := fun he => hp (he ▸ hgone)
          simp [hother]
        · have hfree : taken.contains (hookOf c m) = false := by simpa using hgone
          simp only [hfree, Bool.not_false, Bool.and_true, if_true, Option.toList_some,
            List.singleton_append, List.mem_cons, ih]
          by_cases hsame : hookOf c m = hookOf p.1 p.2
          · -- The first method takes the hook from all that come later.
            have hout : hookOf p.1 p.2 ∉ taken := hsame ▸ hgone
            simp only [hsame, decide_true, Option.some.injEq]
            constructor
            · rintro (rfl | ⟨hp, _⟩)
              · exact ⟨hout, rfl⟩
              · exact absurd (by simp) hp
            · rintro ⟨_, rfl⟩
              exact Or.inl rfl
          · have hother : p ≠ (c, m) := by
              rintro rfl
              exact hsame rfl
            simp [hsame, hother, Ne.symm hsame]

/-! ## The law -/

/-- The fix is sure, and puts state or a hook where the class of its method has a field: the
state that is moved overwrites the field, and the field hides the hook. -/
def overridesField (tree : Snapshot) (fix : Fix) : Bool :=
  fix.confidence == .high && (locate? tree fix).any fun (c, m) =>
    match fix.kind with
    | .moveToConstructor => c.hasField "state"
    | .rename => c.hasField (Rename.modernHook m.name)
    | _ => false

theorem overridesField_iff {tree : Snapshot} {issues : List Issue} {fix : Fix}
    (h : fix ∈ generateForTree tree issues) :
    overridesField tree fix = true ↔
      (∃ p, moves? tree fix = some p ∧ p.1.hasField "state" = true) ∨
        ∃ p, renames? tree fix = some p ∧ p.1.hasField (Rename.modernHook p.2.name) = true := by
  obtain ⟨issue, _, c, m, taken, _, hmade⟩ := madeOf_of_mem h
  obtain ⟨_, _, hv⟩ := hmade.verdict
  have hsure := hv.sure_iff
  have hlocated := hmade.located
  unfold overridesField moves? renames?
  cases hk : fix.kind with
  | moveToConstructor => simp [hlocated, hsure.2 (Or.inr (Or.inl hk))]
  | rename => simp [hlocated, hsure.2 (Or.inr (Or.inr hk))]
  | remove | manualReview => simp [hlocated]

/-- A sure fix overrides a field exactly when the state of a method moves into a class with a
field for its state, or the first method that can take its hook has a class with a field under
the name of the hook. -/
theorem a_sure_fix_overrides_any_field_in_its_way (tree : Snapshot) (issues : List Issue) :
    (∃ fix ∈ generateForTree tree issues, overridesField tree fix = true) ↔
      (∃ p ∈ found tree issues, movesState tree p = true ∧ p.1.hasField "state" = true) ∨
      ∃ p, ((found tree issues).filter takesHook).find?
          (fun q => hookOf q.1 q.2 = hookOf p.1 p.2) = some p ∧
        p.1.hasField (Rename.modernHook p.2.name) = true := by
  constructor
  · rintro ⟨fix, hfix, hover⟩
    rcases (overridesField_iff hfix).1 hover with ⟨p, hp, hfield⟩ | ⟨p, hp, hfield⟩
    · have hmem : p ∈ (generateFrom tree [] issues).filterMap (moves? tree) :=
        List.mem_filterMap.2 ⟨fix, hfix, hp⟩
      rw [moved_eq] at hmem
      obtain ⟨hfound, hmoves⟩ := List.mem_filter.1 hmem
      exact Or.inl ⟨p, hfound, hmoves, hfield⟩
    · have hmem : p ∈ renamed tree (generateFrom tree [] issues) :=
        List.mem_filterMap.2 ⟨fix, hfix, hp⟩
      exact Or.inr ⟨p, ((mem_renamed_iff tree [] issues p).1 hmem).2, hfield⟩
  · rintro (⟨p, hfound, hmoves, hfield⟩ | ⟨p, hfirst, hfield⟩)
    · have hmem : p ∈ (generateFrom tree [] issues).filterMap (moves? tree) := by
        rw [moved_eq]
        exact List.mem_filter.2 ⟨hfound, hmoves⟩
      obtain ⟨fix, hfix, hp⟩ := List.mem_filterMap.1 hmem
      exact ⟨fix, hfix, (overridesField_iff hfix).2 (Or.inl ⟨p, hp, hfield⟩)⟩
    · have hmem : p ∈ renamed tree (generateFrom tree [] issues) :=
        (mem_renamed_iff tree [] issues p).2 ⟨by simp, hfirst⟩
      obtain ⟨fix, hfix, hp⟩ := List.mem_filterMap.1 hmem
      exact ⟨fix, hfix, (overridesField_iff hfix).2 (Or.inr ⟨p, hp, hfield⟩)⟩

/-! ## A class with fields -/

def fieldSource : Text :=
  ("class A \x7b\n  state = \x7b a: 1 \x7d;\n  componentDidUpdate = noop;\n" ++
    "  componentWillMount() \x7b this.setState(\x7b b: 2 \x7d); \x7d\n" ++
    "  componentWillUpdate() \x7b go(); \x7d\n\x7d\n").toList

/-- A method that sets state. -/
def fieldMount : Method :=
  .onLine fieldSource 4 59 61 110 "componentWillMount"
    [⟨"this.setState(\x7b b: 2 \x7d);".toList, .onLine 4 59 84 108⟩]

/-- A method that can be renamed. -/
def fieldUpdate : Method :=
  .onLine fieldSource 5 111 113 144 "componentWillUpdate" [⟨"go();".toList, .onLine 5 111 137 142⟩]

/-- Both stand in a class with a field for its state and a field for the hook. -/
def fieldClass : ClassDecl :=
  ⟨some "A", [fieldMount, fieldUpdate],
    [⟨"state", false, .onLine 2 10 12 28⟩, ⟨"componentDidUpdate", false, .onLine 3 30 32 57⟩],
    ⟨8, 146, 1, 9, 6⟩, ⟨0, 146, 1, 1, 6⟩⟩

def fieldTree : Snapshot :=
  { Snapshot.blank "A.jsx" .javaScript fieldSource with
    classes := [fieldClass]
    calls := [⟨"this.setState", ["\x7b b: 2 \x7d".toList], .onLine 4 59 84 107⟩,
      ⟨"go", [], .onLine 5 111 137 141⟩] }

def fieldIssue (m : Method) : Issue :=
  .ofRule ⟨m.name, "16.3.0", none, "", .warning, none⟩ .lifecycleMethods m.name "A.jsx" m.span ""

/-- The move overwrites the one field, and the other hides the hook. -/
theorem fields_of_a_class_are_overridden :
    fieldTree.WellFormed ∧
      (∃ fix ∈ generateForTree fieldTree [fieldIssue fieldMount],
        overridesField fieldTree fix = true) ∧
      ∃ fix ∈ generateForTree fieldTree [fieldIssue fieldUpdate],
        overridesField fieldTree fix = true := by
  have hmount : (fieldClass, fieldMount) ∈ found fieldTree [fieldIssue fieldMount] ∧
      movesState fieldTree (fieldClass, fieldMount) = true ∧ fieldClass.hasField "state" = true := by
    decide +kernel
  have hupdate : ((found fieldTree [fieldIssue fieldUpdate]).filter takesHook).find?
        (fun q => hookOf q.1 q.2 = hookOf fieldClass fieldUpdate) =
          some (fieldClass, fieldUpdate) ∧
      fieldClass.hasField (Rename.modernHook fieldUpdate.name) = true := by
    decide +kernel
  exact ⟨by decide +kernel,
    (a_sure_fix_overrides_any_field_in_its_way fieldTree [fieldIssue fieldMount]).2
      (Or.inl ⟨(fieldClass, fieldMount), hmount⟩),
    (a_sure_fix_overrides_any_field_in_its_way fieldTree [fieldIssue fieldUpdate]).2
      (Or.inr ⟨(fieldClass, fieldUpdate), hupdate⟩)⟩

end Fix

end Uplift
