-- The revision of one file, step by step. Each fix that can be applied adds one
-- edit around the method it is about, and state on its way into a constructor
-- is queued once for each class. `Gathered` is the invariant of the run over
-- the fixes, and `Revised` says how the revision of the file can end.
import Mathlib.Data.List.Induction
import Uplift.Fix.Apply
import Uplift.Proofs.Revise.StateEdit

namespace Uplift.Fix

open Revise (Widens StateSpot StateOutcome Revising)
open State (Props)

/-! ## The method a fix changes -/

/-- The method that a fix changes: it stands as it was, and state that is to be moved can be
read off it. -/
def target? (tree : Snapshot) (fix : Fix) : Option (ClassDecl × Method) :=
  (locate? tree fix).filter fun (_, m) =>
    match fix.kind with
    | .remove | .rename => true
    | .moveToConstructor => (State.extract? tree m).isSome
    | .manualReview => false

theorem locate?_eq_some {tree : Snapshot} {fix : Fix} {c : ClassDecl} {m : Method} :
    locate? tree fix = some (c, m) ↔
      tree.findMethod? fix.api fix.line = some (c, m) ∧ m.text = fix.before := by
  unfold locate?
  simp only [Option.bind_eq_bind, Option.bind_eq_some_iff]
  constructor
  · rintro ⟨⟨d, n⟩, hf, h⟩
    simp only at h
    split at h
    · cases h
      exact ⟨hf, ‹_›⟩
    · cases h
  · rintro ⟨hf, ht⟩
    exact ⟨(c, m), hf, by simp [ht]⟩

theorem locate?_of_target? {tree : Snapshot} {fix : Fix} {p : ClassDecl × Method}
    (h : target? tree fix = some p) : locate? tree fix = some p :=
  (Option.filter_eq_some_iff.1 h).1

/-- What a fix is about is a member of a class, and no constructor. -/
theorem located_member {tree : Snapshot} {fix : Fix} {c : ClassDecl} {m : Method}
    (h : locate? tree fix = some (c, m)) :
    c ∈ tree.classes ∧ m ∈ c.members ∧ m.isConstructor = false := by
  obtain ⟨hc, hm, hk, _, _⟩ := Snapshot.findMethod?_eq_some (locate?_eq_some.1 h).1
  exact ⟨hc, hm, hk⟩

theorem filterMap_target?_sublist (tree : Snapshot) (fixes : List Fix) :
    (fixes.filterMap (target? tree)).Sublist (fixes.filterMap (locate? tree)) := by
  induction fixes with
  | nil => simp
  | cons fix fixes ih =>
    cases ht : target? tree fix with
    | none =>
      rw [List.filterMap_cons_none ht]
      cases hl : locate? tree fix with
      | none => rwa [List.filterMap_cons_none hl]
      | some p =>
        rw [List.filterMap_cons_some hl]
        exact ih.cons p
    | some p =>
      rw [List.filterMap_cons_some ht, List.filterMap_cons_some (locate?_of_target? ht)]
      exact ih.cons_cons p

/-! ## Queued state -/

/-- Queueing leaves the classes as they are, or adds a class that starts where none of them
starts. -/
theorem queueState_classes {source : Text} {states states' : List PendingState} {c : ClassDecl}
    {offset : Nat} {props : Props} (h : queueState source states c offset props = some states') :
    states'.map (·.cls) = states.map (·.cls) ∨
      states'.map (·.cls) = states.map (·.cls) ++ [c] ∧
        ∀ d ∈ states.map (·.cls), d.span.start ≠ c.span.start := by
  induction states generalizing states' with
  | nil =>
    simp only [queueState, Option.bind_eq_bind, Option.bind_eq_some_iff, Option.some.injEq] at h
    obtain ⟨indent, _, rfl⟩ := h
    simp
  | cons s rest ih =>
    unfold queueState at h
    split at h
    · cases h
      exact Or.inl rfl
    · rename_i hne
      obtain ⟨rest', hr, rfl⟩ := Option.map_eq_some_iff.1 h
      rcases ih hr with he | ⟨he, hall⟩
      · exact Or.inl (by simp [he])
      · refine Or.inr ⟨by simp [he], ?_⟩
        intro d hd
        rcases List.mem_cons.1 hd with rfl | hd
        · exact hne
        · exact hall d hd

theorem queueState_isSome {source : Text} {offset : Nat}
    (h : Text.isBoundary source offset = true) (states : List PendingState) (c : ClassDecl)
    (props : Props) : ∃ states', queueState source states c offset props = some states' := by
  induction states with
  | nil =>
    obtain ⟨indent, hi⟩ := Revise.lineIndent?_isSome h
    exact ⟨[⟨c, indent, props⟩], by simp [queueState, hi]⟩
  | cons s rest ih =>
    obtain ⟨rest', hr⟩ := ih
    unfold queueState
    split
    · exact ⟨_, rfl⟩
    · exact ⟨_, by rw [hr]; rfl⟩

/-! ## One step -/

/-- What adding the edits of one fix can do. -/
inductive Step (tree : Snapshot) (work : FileEdits) (fix : Fix) : FileEdits → Prop
  | stale : target? tree fix = none → Step tree work fix { work with stale := work.stale + 1 }
  | left : target? tree fix = none → fix.kind = .manualReview → Step tree work fix work
  | edited (c : ClassDecl) (m : Method) (e : Edit) :
      target? tree fix = some (c, m) → fix.kind ≠ .moveToConstructor →
      Widens tree.source m.span.start m.span.stop e.start e.stop →
      (fix.kind = .rename → e = ⟨m.span.start, m.span.stop,
        Rename.renamedText m (Rename.modernHook m.name)⟩) →
      Step tree work fix { work with edits := work.edits ++ [e], applied := work.applied + 1 }
  | moved (c : ClassDecl) (m : Method) (e : Edit) (props : Props)
      (states : List PendingState) :
      target? tree fix = some (c, m) → fix.kind = .moveToConstructor →
      State.extract? tree m = some props →
      queueState tree.source work.states c m.span.start props = some states →
      Widens tree.source m.span.start m.span.stop e.start e.stop →
      Step tree work fix
        { work with edits := work.edits ++ [e], states, applied := work.applied + 1 }

theorem widens_self {source : Text} {s : Span} (h : s.Fits source) :
    Widens source s.start s.stop s.start s.stop :=
  ⟨⟨[], Text.slice?_self h.2.1, by simp⟩, ⟨[], Text.slice?_self h.2.2, by simp, Or.inl rfl⟩⟩

/-- Where the spans fit, a step has an answer, and it does one of the things a step can do. -/
theorem addEdits_step {tree : Snapshot} (hfit : tree.SpansFit) (work : FileEdits) (fix : Fix) :
    ∃ work', addEdits tree work fix = some work' ∧ Step tree work fix work' := by
  unfold addEdits
  cases hl : locate? tree fix with
  | none => exact ⟨_, rfl, .stale (by simp [target?, hl])⟩
  | some p =>
    obtain ⟨c, m⟩ := p
    obtain ⟨hc, hm, _⟩ := located_member hl
    have hms := hfit.method hc hm
    obtain ⟨e, he, _, hwide⟩ := Revise.exists_removalEdit? hms.2.1 hms.2.2
    cases hk : fix.kind with
    | remove =>
      simp only [he, Option.bind_eq_bind, Option.bind_some]
      exact ⟨_, rfl, .edited c m e (by simp [target?, hl, hk]) (by simp [hk]) hwide (by simp [hk])⟩
    | rename =>
      exact ⟨_, rfl, .edited c m _ (by simp [target?, hl, hk]) (by simp [hk]) (widens_self hms)
        (fun _ => rfl)⟩
    | manualReview => exact ⟨_, rfl, .left (by simp [target?, hl, hk]) hk⟩
    | moveToConstructor =>
      simp only
      cases hx : State.extract? tree m with
      | none => exact ⟨_, rfl, .stale (by simp [target?, hl, hk, hx])⟩
      | some props =>
        obtain ⟨states, hq⟩ := queueState_isSome hms.2.1 work.states c props
        simp only [hq, he, Option.bind_eq_bind, Option.bind_some]
        exact ⟨_, rfl, .moved c m e props states (by simp [target?, hl, hk, hx]) hk hx hq hwide⟩

/-! ## The run over all fixes -/

/-- An edit together with the method it is around. -/
abbrev Placed := (ClassDecl × Method) × Edit

/-- What has been gathered from `fixes`: one edit for each method that they change, in order,
and each class with queued state once. -/
structure Gathered (tree : Snapshot) (fixes : List Fix) (work : FileEdits)
    (placed : List Placed) : Prop where
  edits : work.edits = placed.map (·.2)
  targets : placed.map (·.1) = fixes.filterMap (target? tree)
  applied : work.applied = placed.length
  counted : work.applied + work.stale ≤ fixes.length
  widens : ∀ p ∈ placed,
    Widens tree.source p.1.2.span.start p.1.2.span.stop p.2.start p.2.stop
  queued : ∀ c ∈ work.states.map (·.cls), ∃ fix ∈ fixes, ∃ m,
    fix.kind = .moveToConstructor ∧ target? tree fix = some (c, m)
  starts : (work.states.map (·.cls)).Pairwise fun c d => c.span.start ≠ d.span.start

theorem gathered_nil (tree : Snapshot) : Gathered tree [] {} [] :=
  ⟨rfl, rfl, rfl, Nat.le_refl 0, by simp, by simp, by simp⟩

/-- A step keeps what is gathered. -/
theorem Gathered.step {tree : Snapshot} {fixes : List Fix} {work work' : FileEdits}
    {placed : List Placed} {fix : Fix} (h : Gathered tree fixes work placed)
    (hs : Step tree work fix work') : ∃ placed', Gathered tree (fixes ++ [fix]) work' placed' := by
  obtain ⟨h1, h2, h3, hn, h4, h5, h6⟩ := h
  have hqueued : ∀ c ∈ work.states.map (·.cls), ∃ f ∈ fixes ++ [fix], ∃ m,
      f.kind = .moveToConstructor ∧ target? tree f = some (c, m) := by
    intro c hc
    obtain ⟨f, hf, hfm⟩ := h5 c hc
    exact ⟨f, List.mem_append_left _ hf, hfm⟩
  have hwidens : ∀ (c : ClassDecl) (m : Method) (e : Edit),
      Widens tree.source m.span.start m.span.stop e.start e.stop →
      ∀ p ∈ placed ++ [((c, m), e)],
        Widens tree.source p.1.2.span.start p.1.2.span.stop p.2.start p.2.stop := by
    intro c m e hw p hp
    rcases List.mem_append.1 hp with hp | hp
    · exact h4 p hp
    · rw [List.mem_singleton.1 hp]
      exact hw
  cases hs with
  | stale ht =>
    exact ⟨placed, h1, by simp [h2, ht], h3, by simp; omega, h4, hqueued, h6⟩
  | left ht _ =>
    exact ⟨placed, h1, by simp [h2, ht], h3, by simp; omega, h4, hqueued, h6⟩
  | edited c m e ht _ hw _ =>
    exact ⟨placed ++ [((c, m), e)], by simp [h1], by simp [h2, ht], by simp [h3],
      by simp; omega, hwidens c m e hw, hqueued, h6⟩
  | moved c m e props states ht hk hx hq hw =>
    refine ⟨placed ++ [((c, m), e)], by simp [h1], by simp [h2, ht], by simp [h3],
      by simp; omega, hwidens c m e hw, ?_, ?_⟩
    · intro d hd
      rcases queueState_classes hq with he | ⟨he, _⟩
      · exact hqueued d (by rwa [he] at hd)
      · simp only [he, List.mem_append, List.mem_singleton] at hd
        rcases hd with hd | rfl
        · exact hqueued d hd
        · exact ⟨fix, by simp, m, hk, ht⟩
    · rcases queueState_classes hq with he | ⟨he, hne⟩
      · simp only [he]
        exact h6
      · simp only [he, List.pairwise_append]
        refine ⟨h6, by simp, ?_⟩
        intro d hd d' hd'
        rw [List.mem_singleton.1 hd']
        exact hne d hd

theorem gathered_run {tree : Snapshot} (hfit : tree.SpansFit) (fixes : List Fix) :
    ∃ work placed, fixes.foldlM (addEdits tree) {} = some work ∧
      Gathered tree fixes work placed := by
  induction fixes using List.reverseRecOn with
  | nil => exact ⟨{}, [], rfl, gathered_nil tree⟩
  | append_singleton fixes fix ih =>
    obtain ⟨work, placed, hrun, hg⟩ := ih
    obtain ⟨work', ha, hs⟩ := addEdits_step hfit work fix
    obtain ⟨placed', hg'⟩ := hg.step hs
    refine ⟨work', placed', ?_, hg'⟩
    rw [List.foldlM_append, hrun]
    simp [ha]

/-- A class with queued state belongs to the snapshot. -/
theorem Gathered.queued_mem {tree : Snapshot} {fixes : List Fix} {work : FileEdits}
    {placed : List Placed} (h : Gathered tree fixes work placed) {c : ClassDecl}
    (hc : c ∈ work.states.map (·.cls)) : c ∈ tree.classes := by
  obtain ⟨fix, _, m, _, ht⟩ := h.queued c hc
  exact (located_member (locate?_of_target? ht)).1

/-! ## How a revision ends -/

/-- A class with queued state, and the edit that gives it its state. -/
abbrev Spot := ClassDecl × Edit

/-- The edits of the state stand each in a place for it, or one class refuses its state. -/
theorem stateEdits_outcome {tree : Snapshot} (hfit : tree.SpansFit) {states : List PendingState}
    (hmem : ∀ c ∈ states.map (·.cls), c ∈ tree.classes) :
    (∃ spots : List Spot, stateEdits tree states = some (.ok (spots.map (·.2))) ∧
        spots.map (·.1) = states.map (·.cls) ∧ ∀ p ∈ spots, StateSpot p.1 p.2) ∨
      ∃ c ∈ states.map (·.cls), ∃ e, stateEdits tree states = some (.error e) ∧
        StateOutcome c (.error e) := by
  induction states with
  | nil => exact Or.inl ⟨[], rfl, rfl, by simp⟩
  | cons s rest ih =>
    have ih := ih (fun c hc => hmem c (by simp only [List.map_cons, List.mem_cons, hc, or_true]))
    obtain ⟨r, hr, ho⟩ := Revise.stateEdit_outcome hfit (hmem s.cls (by simp)) s.props
      s.memberIndent
    unfold stateEdits
    cases ho with
    | unmergeable line hn =>
      exact Or.inr ⟨s.cls, by simp, _, Revise.bind_error hr _, .unmergeable line hn⟩
    | bodiless line hn =>
      exact Or.inr ⟨s.cls, by simp, _, Revise.bind_error hr _, .bodiless line hn⟩
    | placed e hspot =>
      rw [Revise.bind_ok hr]
      rcases ih with ⟨spots, hes, hcls, hall⟩ | ⟨c, hc, e', hes, hbad⟩
      · refine Or.inl ⟨(s.cls, e) :: spots, ?_, by simp [hcls], ?_⟩
        · rw [Revise.bind_ok hes]
          rfl
        · intro p hp
          rcases List.mem_cons.1 hp with rfl | hp
          · exact hspot
          · exact hall p hp
      · exact Or.inr ⟨c, by simp only [List.map_cons, List.mem_cons, hc, or_true], e',
          Revise.bind_error hes _, hbad⟩

/-- How the revision of a file can end, once its edits are gathered. -/
inductive Revised (tree : Snapshot) (work : FileEdits) (placed : List Placed) :
    Except ApplyError FileRevision → Prop
  | refused (c : ClassDecl) (e : ApplyError) : c ∈ work.states.map (·.cls) →
      StateOutcome c (.error e) → Revised tree work placed (.error e)
  | untouched : placed = [] →
      Revised tree work placed (.ok ⟨none, work.applied, work.stale⟩)
  | edited (spots : List Spot) : spots.map (·.1) = work.states.map (·.cls) →
      (∀ p ∈ spots, StateSpot p.1 p.2) →
      Revised tree work placed
        ((Edit.applyAll tree.source (placed.map (·.2) ++ spots.map (·.2))).map
          fun text => ⟨some text, work.applied, work.stale⟩)

/-- Where the spans fit, the revision of a file has an answer. -/
theorem reviseTree_revised {tree : Snapshot} (hfit : tree.SpansFit) (fixes : List Fix) :
    ∃ work placed r, fixes.foldlM (addEdits tree) {} = some work ∧
      Gathered tree fixes work placed ∧ reviseTree tree fixes = some r ∧
      Revised tree work placed r := by
  obtain ⟨work, placed, hrun, hg⟩ := gathered_run hfit fixes
  have hfirst : Revise.fitting (fixes.foldlM (addEdits tree) {}) = some (.ok work) := by
    rw [hrun]
    rfl
  rcases stateEdits_outcome hfit (fun _ => hg.queued_mem) with
    ⟨spots, hes, hcls, hall⟩ | ⟨c, hc, e, hes, hbad⟩
  · have hrev : reviseTree tree fixes =
        if (work.edits ++ spots.map (·.2)).isEmpty then
          some (.ok ⟨none, work.applied, work.stale⟩)
        else some ((Edit.applyAll tree.source (work.edits ++ spots.map (·.2))).map
          fun text => ⟨some text, work.applied, work.stale⟩) := by
      unfold reviseTree
      rw [Revise.bind_ok hfirst, Revise.bind_ok hes]
      dsimp only
      by_cases he : (work.edits ++ spots.map (·.2)).isEmpty = true
      · rw [if_pos he, if_pos he]
        rfl
      · rw [if_neg he, if_neg he]
        cases Edit.applyAll tree.source (work.edits ++ spots.map (·.2)) <;> rfl
    rw [hg.edits] at hrev
    split at hrev
    · rename_i hempty
      refine ⟨work, placed, _, hrun, hg, hrev, .untouched ?_⟩
      simp only [List.isEmpty_iff, List.append_eq_nil_iff, List.map_eq_nil_iff] at hempty
      exact hempty.1
    · exact ⟨work, placed, _, hrun, hg, hrev, .edited spots hcls hall⟩
  · refine ⟨work, placed, .error e, hrun, hg, ?_, .refused c e hc hbad⟩
    unfold reviseTree
    rw [Revise.bind_ok hfirst, Revise.bind_error hes]

end Uplift.Fix
