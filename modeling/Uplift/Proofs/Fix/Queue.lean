-- State on its way into a constructor. Each class has one place in the queue,
-- which its first method takes, and what later methods set is laid over what is
-- there. So the queue holds for a class the overlay of all that its methods set,
-- however the methods are grouped and whatever is queued in between for others.
import Uplift.Fix.Apply
import Uplift.Proofs.State.Grouping
import Uplift.Proofs.Snapshot.Spans

namespace Uplift.Fix

open State (Props Grouping)

/-! ## One class of the queue -/

/-- The states in the queue for the class that starts at `start`. -/
def queuedFor (start : Nat) (states : List PendingState) : List Props :=
  (states.filter (·.cls.span.start == start)).map (·.props)

/-- Lay `props` over the first state, or begin with it. -/
def layOver (states : List Props) (props : Props) : List Props :=
  match states with
  | [] => [props]
  | p :: rest => p.extend props :: rest

theorem queuedFor_cons (start : Nat) (s : PendingState) (rest : List PendingState) :
    queuedFor start (s :: rest) =
      if s.cls.span.start = start then s.props :: queuedFor start rest
      else queuedFor start rest := by
  unfold queuedFor
  by_cases hs : s.cls.span.start = start
  · simp [hs]
  · simp [hs]

/-- Queueing state for a class changes what is queued for that class, and nothing else. -/
theorem queuedFor_queueState {source : Text} {states states' : List PendingState}
    {cls : ClassDecl} {offset : Nat} {props : Props} (start : Nat)
    (h : queueState source states cls offset props = some states') :
    queuedFor start states' =
      if cls.span.start = start then layOver (queuedFor start states) props
      else queuedFor start states := by
  induction states generalizing states' with
  | nil =>
    simp only [queueState, Option.bind_eq_bind, Option.bind_eq_some_iff, Option.some.injEq] at h
    obtain ⟨indent, _, rfl⟩ := h
    exact queuedFor_cons start _ []
  | cons s rest ih =>
    unfold queueState at h
    split at h
    · rename_i hsame
      cases h
      rw [queuedFor_cons, queuedFor_cons]
      by_cases hs : s.cls.span.start = start
      · rw [if_pos hs, if_pos hs, if_pos (hsame.symm.trans hs)]
        rfl
      · rw [if_neg hs, if_neg hs, if_neg fun hc => hs (hsame.trans hc)]
    · rename_i hother
      obtain ⟨rest', hrest, rfl⟩ := Option.map_eq_some_iff.1 h
      rw [queuedFor_cons, queuedFor_cons, ih hrest]
      by_cases hs : s.cls.span.start = start
      · have hc : ¬ cls.span.start = start := fun hc => hother (hs.trans hc.symm)
        rw [if_pos hs, if_pos hs, if_neg hc, if_neg hc]
      · rw [if_neg hs, if_neg hs]

/-! ## A run over fixes -/

/-- The state that a fix moves to the class that starts at `start`. -/
def movedTo? (tree : Snapshot) (start : Nat) (fix : Fix) : Option Props := do
  let (cls, method) ← locate? tree fix
  if fix.kind = .moveToConstructor ∧ cls.span.start = start then State.extract? tree method
  else none

theorem nodup_keys_movedTo? {tree : Snapshot} {start : Nat} {fix : Fix} {props : Props}
    (h : movedTo? tree start fix = some props) : props.keys.Nodup := by
  unfold movedTo? at h
  simp only [Option.bind_eq_bind, Option.bind_eq_some_iff] at h
  obtain ⟨⟨cls, method⟩, _, h⟩ := h
  split at h
  · exact State.nodup_keys_extract? h
  · cases h

/-- One fix lays the state that it moves to a class over what is queued for the class. -/
theorem queuedFor_addEdits {tree : Snapshot} {work work' : FileEdits} {fix : Fix} (start : Nat)
    (h : addEdits tree work fix = some work') :
    queuedFor start work'.states =
      (movedTo? tree start fix).elim (queuedFor start work.states)
        (layOver (queuedFor start work.states)) := by
  unfold addEdits at h
  unfold movedTo?
  cases hl : locate? tree fix with
  | none =>
    rw [hl] at h
    cases h
    rfl
  | some found =>
    obtain ⟨cls, method⟩ := found
    rw [hl] at h
    cases hk : fix.kind with
    | remove =>
      simp only [hk, Option.bind_eq_bind, Option.bind_eq_some_iff] at h
      obtain ⟨edit, _, h⟩ := h
      cases h
      rfl
    | rename =>
      simp only [hk] at h
      cases h
      rfl
    | manualReview =>
      simp only [hk] at h
      cases h
      rfl
    | moveToConstructor =>
      simp only [hk] at h
      cases he : State.extract? tree method with
      | none =>
        rw [he] at h
        cases h
        simp [he]
      | some props =>
        simp only [he, Option.bind_eq_bind, Option.bind_eq_some_iff] at h
        obtain ⟨states, hq, edit, _, h⟩ := h
        cases h
        rw [queuedFor_queueState start hq]
        by_cases hc : cls.span.start = start
        · simp [hc, he]
        · simp [hc]

/-- Fixes lay the states that they move to a class over one another, in order. -/
theorem queuedFor_run {tree : Snapshot} {fixes : List Fix} {work work' : FileEdits} (start : Nat)
    (h : fixes.foldlM (addEdits tree) work = some work') :
    queuedFor start work'.states =
      (fixes.filterMap (movedTo? tree start)).foldl layOver (queuedFor start work.states) := by
  induction fixes generalizing work with
  | nil =>
    cases h
    rfl
  | cons fix fixes ih =>
    simp only [List.foldlM_cons, Option.bind_eq_bind, Option.bind_eq_some_iff] at h
    obtain ⟨next, hnext, h⟩ := h
    rw [ih h, queuedFor_addEdits start hnext]
    cases hm : movedTo? tree start fix with
    | none => simp [List.filterMap_cons_none hm]
    | some props => simp [List.filterMap_cons_some hm]

theorem foldl_layOver (p : Props) (layers : List Props) :
    layers.foldl layOver [p] = [layers.foldl Props.extend p] := by
  induction layers generalizing p with
  | nil => rfl
  | cons q rest ih => exact ih (p.extend q)

/-- However the methods of a class are grouped, the same state is queued for it. -/
theorem queuedFor_of_grouping {tree : Snapshot} {fixes : List Fix} {work : FileEdits}
    {start : Nat} {g : Grouping} (h : fixes.foldlM (addEdits tree) {} = some work)
    (hg : g.layers = fixes.filterMap (movedTo? tree start)) :
    queuedFor start work.states = [g.overlay] := by
  have hlayers : ∀ p ∈ g.layers, p.keys.Nodup := by
    intro p hp
    rw [hg] at hp
    obtain ⟨fix, _, hfix⟩ := List.mem_filterMap.1 hp
    exact nodup_keys_movedTo? hfix
  rw [queuedFor_run start h, ← hg, Grouping.overlay_eq_foldl hlayers]
  obtain ⟨p, rest, hrest⟩ := List.exists_cons_of_ne_nil g.layers_ne_nil
  rw [hrest] at hlayers ⊢
  rw [List.foldl_cons, List.foldl_cons, Props.empty_extend (hlayers p List.mem_cons_self)]
  exact foldl_layOver p rest

/-! ## The law -/

/-- Overlays can be grouped in any way. Laying states over one another is associative, a layer
that is repeated changes nothing more, and the empty state changes nothing on either side. So
the state that is read off a method does not depend on how its updates are grouped, nor the
state that is queued for a class on how its methods are grouped. -/
theorem overlays_can_be_grouped_in_any_way :
    (∀ a b c : Props, a.keys.Nodup → b.keys.Nodup → c.keys.Nodup →
      (a.extend b).extend c = a.extend (b.extend c) ∧
        (a.extend b).extend b = a.extend b ∧
        a.extend Props.empty = a ∧ Props.empty.extend a = a) ∧
    (∀ (tree : Snapshot) (m : Method) (body : Body) (g : Grouping), m.body = some body →
      g.layers = State.updates tree body →
      State.extract? tree m = if g.overlay.isEmpty then none else some g.overlay) ∧
    ∀ (tree : Snapshot) (fixes : List Fix) (work : FileEdits) (start : Nat) (g : Grouping),
      fixes.foldlM (addEdits tree) {} = some work →
      g.layers = fixes.filterMap (movedTo? tree start) →
      queuedFor start work.states = [g.overlay] := by
  refine ⟨?_, ?_, ?_⟩
  · intro a b c ha hb hc
    exact ⟨Props.extend_assoc ha hb hc, Props.extend_extend ha hb, Props.extend_empty a,
      Props.empty_extend ha⟩
  · intro tree m body g hbody hg
    exact State.extract?_of_grouping hbody hg
  · intro tree fixes work start g hrun hg
    exact queuedFor_of_grouping hrun hg

/-- A class with three methods that set state, the first of them twice. -/
def layeredTree : Snapshot :=
  let source := ["class A \x7b\n", "  mount() \x7b ", "this.setState(", "\x7b a: 1 \x7d); ",
    "this.setState(", "\x7b a: 2, b: 3 \x7d); \x7d\n", "  update() \x7b ", "this.setState(",
    "\x7b c: 4, b: 5 \x7d); \x7d\n", "  receive() \x7b ", "this.setState(",
    "\x7b a: 6 \x7d); \x7d\n", "\x7d\n"].flatMap String.toList
  let statement := fun s : Span => Statement.mk ((Text.slice? source s.start s.stop).getD []) s
  let members :=
    [.onLine source 2 10 12 79 "mount"
        [statement (.onLine 2 10 22 46), statement (.onLine 2 10 47 77)],
      .onLine source 3 80 82 125 "update" [statement (.onLine 3 80 93 123)],
      .onLine source 4 126 128 166 "receive" [statement (.onLine 4 126 140 164)]]
  { Snapshot.blank "A.jsx" .javaScript source with
    classes := [⟨some "A", members, [], ⟨8, 168, 1, 9, 5⟩, ⟨0, 168, 1, 1, 5⟩⟩]
    calls := [⟨"this.setState", ["\x7b a: 1 \x7d".toList], .onLine 2 10 22 45⟩,
      ⟨"this.setState", ["\x7b a: 2, b: 3 \x7d".toList], .onLine 2 10 47 76⟩,
      ⟨"this.setState", ["\x7b c: 4, b: 5 \x7d".toList], .onLine 3 80 93 122⟩,
      ⟨"this.setState", ["\x7b a: 6 \x7d".toList], .onLine 4 126 140 163⟩] }

/-- The moves of its three methods. -/
def layeredMoves : List Fix :=
  (layeredTree.classes.flatMap ClassDecl.methods).map fun m =>
    ⟨m.name, "A.jsx", m.line, .lifecycleMethods, .setStateOnly, "", m.text, [],
      .moveToConstructor, .high, none⟩

/-- The updates of the first method, and the methods of the class, grouped from the last on. -/
theorem layered_methods_are_grouped_from_the_last :
    let a := State.parseLiteral "\x7b a: 1 \x7d".toList
    let b := State.parseLiteral "\x7b a: 2, b: 3 \x7d".toList
    let c := State.parseLiteral "\x7b c: 4, b: 5 \x7d".toList
    let d := State.parseLiteral "\x7b a: 6 \x7d".toList
    (a.extend b).extend c = a.extend (b.extend c) ∧
      (∀ m ∈ (layeredTree.classes.flatMap ClassDecl.methods).head?,
        State.extract? layeredTree m = some (a.extend b)) ∧
      ∃ work, layeredMoves.foldlM (addEdits layeredTree) {} = some work ∧
        queuedFor 0 work.states = [(a.extend b).extend (c.extend d)] ∧
        (queuedFor 0 work.states).map Props.keys = [[['a'], ['b'], ['c']]] := by
  intro a b c d
  obtain ⟨hlaws, hextract, hqueue⟩ := overlays_can_be_grouped_in_any_way
  refine ⟨?_, ?_, ?_⟩
  · exact (hlaws a b c (by decide +kernel) (by decide +kernel) (by decide +kernel)).1
  · intro m hm
    cases hm
    exact hextract layeredTree _ _ (.stacked (.single a) (.single b)) rfl (by decide +kernel)
  · obtain ⟨work, hrun⟩ := Option.isSome_iff_exists.1
      (show (layeredMoves.foldlM (addEdits layeredTree) {}).isSome = true by decide +kernel)
    have hqueued := hqueue layeredTree layeredMoves work 0
      (.stacked (.single (a.extend b)) (.stacked (.single c) (.single d))) hrun (by decide +kernel)
    refine ⟨work, hrun, hqueued, ?_⟩
    rw [hqueued]
    decide +kernel

end Uplift.Fix
