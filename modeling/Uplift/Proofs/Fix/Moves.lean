-- What a move into the constructor keeps of the method it removes. A move is
-- proposed only for a body of at most two statements that shows no sign of other
-- work, and at least one of them begins with an update by an object literal. The
-- state that is moved has, under each key, the entry written for it last. A
-- second statement is not looked at, and goes with the method.
import Mathlib.Data.List.Basic
import Uplift.Proofs.Fix.Agreement
import Uplift.Proofs.State.Overlay

namespace Uplift.Fix

open Lifecycle

/-! ## Bodies that set state -/

/-- The signs by which a body is held to set state and do nothing else. -/
structure ShowsOnlyUpdates (body : Body) : Prop where
  updates : callsSetState body.text = true
  short : body.statements.length ≤ 2
  no_work : mentionsAny body.text ["console.", "return", "if (", "for "] = false
  flat : hasNestedStateObject body.text = false
  uncommented : hasInlineComment body.text = false

theorem classifyWillMount_setStateOnly {text : Text} {n : Nat}
    (h : classifyWillMount text n = .setStateOnly) :
    (hasNestedStateObject text || hasInlineComment text) = false ∧ callsSetState text = true ∧
      hasOtherWork text n = false := by
  unfold classifyWillMount at h
  split at h
  · cases h
  · rename_i hplain
    split at h
    · rename_i hset
      simp only [Bool.and_eq_true, Bool.not_eq_true'] at hset
      exact ⟨by simpa using hplain, hset⟩
    · split at h
      · cases h
      · split at h <;> cases h

/-- Only one hook is ever held to set state and do nothing else. -/
theorem classify_setStateOnly {name : String} {body : Option Body}
    (h : classify name body = .setStateOnly) :
    name = "componentWillMount" ∧ ∃ b, body = some b ∧ ShowsOnlyUpdates b := by
  unfold classify at h
  cases body with
  | none => cases h
  | some b =>
    simp only [classifyText] at h
    split at h
    · cases h
    · split at h
      · cases h
      · split at h
        · rename_i hname
          obtain ⟨hplain, hset, hwork⟩ := classifyWillMount_setStateOnly h
          simp only [Bool.or_eq_false_iff] at hplain
          unfold hasOtherWork at hwork
          simp only [Bool.or_eq_false_iff, decide_eq_false_iff_not, Nat.not_lt] at hwork
          exact ⟨by simpa using hname, b, rfl, hset, hwork.2, hwork.1, hplain.1, hplain.2⟩
        · exfalso
          split at h
          · unfold classifyWillReceiveProps at h
            split at h <;> cases h
          · split at h
            · unfold classifyWillUpdate at h
              split at h <;> cases h
            · cases h

/-! ## Statements that are updates -/

/-- The statement begins with an update whose first argument opens an object literal. -/
def beginsWithUpdate (tree : Snapshot) (s : Statement) : Bool :=
  tree.calls.any fun call => call.callee == State.setStateCallee &&
    s.span.start == call.span.start && (State.literalOf? call).isSome

/-- Every update that counts begins a statement of the body. -/
theorem exists_beginsWithUpdate {tree : Snapshot} {body : Body}
    (h : State.updates tree body ≠ []) :
    ∃ s ∈ body.statements, beginsWithUpdate tree s = true := by
  obtain ⟨props, hp⟩ := List.exists_mem_of_ne_nil _ h
  unfold State.updates at hp
  obtain ⟨call, hcall, hlit⟩ := List.mem_filterMap.1 hp
  obtain ⟨hmem, hcond⟩ := List.mem_filter.1 hcall
  simp only [Bool.and_eq_true, State.isStatementOf, List.any_eq_true] at hcond
  obtain ⟨hcallee, s, hs, hstart⟩ := hcond
  refine ⟨s, hs, ?_⟩
  unfold beginsWithUpdate
  rw [List.any_eq_true]
  exact ⟨call, hmem, by simp [hlit, hcallee, hstart]⟩

/-! ## The law -/

/-- A move is sure, and is about a short body that shows no other work. At most one statement
of it does not begin with an update by a literal, and the state that is moved has under each
key the entry that the updates write for it last. -/
theorem a_move_leaves_at_most_one_statement_behind (tree : Snapshot) (issues : List Issue)
    (fix : Fix) (h : fix ∈ generateForTree tree issues) (hk : fix.kind = .moveToConstructor) :
    fix.confidence = .high ∧ ∃ c m body props,
      locate? tree fix = some (c, m) ∧ m.name = "componentWillMount" ∧ m.body = some body ∧
      ShowsOnlyUpdates body ∧
      (∃ s ∈ body.statements, beginsWithUpdate tree s = true) ∧
      (body.statements.filter fun s => !beginsWithUpdate tree s).length ≤ 1 ∧
      (∀ key, props.find? key =
        ((State.updates tree body).flatMap (·.entries)).reverse.find? (·.key == key)) ∧
      fix.after = Revise.constructorPreview props := by
  obtain ⟨issue, _, c, m, taken, _, hmade⟩ := madeOf_of_mem h
  obtain ⟨_, _, hv⟩ := hmade.verdict
  obtain ⟨hsure, hp, _, props, hx, hafter⟩ := hv.of_move hk
  obtain ⟨hname, body, hb, hshow⟩ := classify_setStateOnly hp
  obtain ⟨body', hb', hprops, hne⟩ := State.extract?_eq_some.1 hx
  obtain rfl : body' = body := Option.some.inj (hb'.symm.trans hb)
  rw [hprops] at hne
  obtain ⟨s, hs, hupdate⟩ := exists_beginsWithUpdate (State.updates_ne_nil hne)
  have hcount : 0 < (body'.statements.filter (beginsWithUpdate tree)).length :=
    List.length_pos_of_mem (List.mem_filter.2 ⟨hs, hupdate⟩)
  have hsum := body'.statements.length_eq_length_filter_add (beginsWithUpdate tree)
  have hshort := hshow.short
  refine ⟨hsure, c, m, body', props, hmade.located, hname, hb, hshow, ⟨s, hs, hupdate⟩, ?_, ?_,
    hafter⟩
  · omega
  · intro key
    rw [hprops]
    exact State.Props.find?_foldl_extend _ key

/-! ## A statement that goes with its method -/

/-- A method that sets state and then calls `this.load()`. -/
def loadingMethod : Method :=
  let source := ("class A \x7b\n  componentWillMount() \x7b this.setState(\x7b a: 1 \x7d); " ++
    "this.load(); \x7d\n\x7d\n").toList
  .onLine source 2 10 12 74 "componentWillMount"
    [⟨"this.setState(\x7b a: 1 \x7d);".toList, .onLine 2 10 35 59⟩,
      ⟨"this.load();".toList, .onLine 2 10 60 72⟩]

/-- A class with nothing but that method. -/
def loadingClass : ClassDecl :=
  ⟨some "A", [loadingMethod], [], ⟨8, 76, 1, 9, 3⟩, ⟨0, 76, 1, 1, 3⟩⟩

def loadingTree : Snapshot :=
  let source := "class A \x7b\n  ".toList ++ loadingMethod.text ++ "\n\x7d\n".toList
  { Snapshot.blank "A.jsx" .javaScript source with
    classes := [loadingClass]
    calls := [⟨"this.setState", ["\x7b a: 1 \x7d".toList], .onLine 2 10 35 58⟩,
      ⟨"this.load", [], .onLine 2 10 60 71⟩] }

def loadingIssue : Issue :=
  .ofRule ⟨"componentWillMount", "16.3.0", none, "", .warning, none⟩ .lifecycleMethods
    "componentWillMount" "A.jsx" loadingMethod.span ""

/-- The move that is proposed for it. -/
def loadingMove : Fix :=
  about loadingIssue loadingMethod .setStateOnly .moveToConstructor .high
    "Move state initialization from componentWillMount into the constructor"
    (Revise.constructorPreview (State.parseLiteral "\x7b a: 1 \x7d".toList))

theorem loadingMove_generated : loadingMove ∈ generateForTree loadingTree [loadingIssue] := by
  decide +kernel

/-- One statement begins with the update; the other is left behind. -/
theorem loading_move_leaves_one_statement_behind :
    loadingMove ∈ generateForTree loadingTree [loadingIssue] ∧
      loadingMove.kind = .moveToConstructor ∧ loadingMove.confidence = .high ∧
      ∃ c m body, locate? loadingTree loadingMove = some (c, m) ∧ m.body = some body ∧
        (body.statements.filter fun s => !beginsWithUpdate loadingTree s).length ≤ 1 := by
  obtain ⟨hsure, c, m, body, _, hl, _, hb, _, _, hcount, _⟩ :=
    a_move_leaves_at_most_one_statement_behind loadingTree [loadingIssue] loadingMove
      loadingMove_generated rfl
  exact ⟨loadingMove_generated, rfl, hsure, c, m, body, hl, hb, hcount⟩

/-- The whole statement is an update by one object literal. -/
def IsUpdateStatement (tree : Snapshot) (s : Statement) : Prop :=
  ∃ call ∈ tree.calls, call.callee = State.setStateCallee ∧ call.span.start = s.span.start ∧
    (call.span.stop = s.span.stop ∨ call.span.stop + 1 = s.span.stop) ∧
    ∃ literal, call.arguments = [literal] ∧ State.opensLiteral literal = true

/-- A sure move can remove a statement that is no update. -/
theorem a_sure_move_can_drop_a_statement :
    ¬ ∀ (tree : Snapshot) (issues : List Issue), tree.WellFormed →
      ∀ fix ∈ generateForTree tree issues, fix.kind = .moveToConstructor →
        fix.confidence = .high → ∀ c m, locate? tree fix = some (c, m) →
          ∀ s ∈ m.statements, IsUpdateStatement tree s := by
  intro h
  have hwell : loadingTree.WellFormed := by decide +kernel
  have hlocated : locate? loadingTree loadingMove = some (loadingClass, loadingMethod) := by
    decide +kernel
  obtain ⟨call, hcall, hcallee, hstart, _⟩ := h loadingTree [loadingIssue] hwell loadingMove
    loadingMove_generated rfl rfl _ _ hlocated
    ⟨"this.load();".toList, .onLine 2 10 60 72⟩ (by decide +kernel)
  have hnone : ∀ call ∈ loadingTree.calls, call.callee = State.setStateCallee →
      call.span.start ≠ 60 := by decide +kernel
  exact hnone call hcall hcallee hstart

end Uplift.Fix
