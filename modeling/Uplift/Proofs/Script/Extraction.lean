-- The snapshot of a nested tree. The walk visits every node once, so each list of
-- the snapshot holds one record of every node of its kind, in preorder.
import Uplift.Proofs.Script.Records

namespace Uplift.Script

/-! ## Lists of records -/

/-- The list holds one record of every node that is wanted, in preorder. -/
def Collects {α : Type} (root : Tree) (wanted : Tree → Prop)
    (records : Option Tree → Tree → α → Prop) (found : List α) : Prop :=
  ∃ places : List Tree.Place, places.Pairwise (· < ·) ∧
    (∀ place, place ∈ places ↔ ∃ t, root.at? place = some t ∧ wanted t) ∧
    List.Forall₂ (fun place x => ∃ t, root.at? place = some t ∧ records (root.above? place) t x)
      places found

section
variable {α : Type} {source : Text} {root : Tree} {wanted : Tree → Prop}

/-- What is read off the nodes of a walk. -/
theorem collects_walk {records : Option Tree → Tree → α → Prop}
    {read : Option Tree × Tree → Option α}
    (hwanted : ∀ parent t, (read (parent, t)).isSome = true ↔ wanted t)
    (hrecords : ∀ place t x, root.at? place = some t → read (root.above? place, t) = some x →
      records (root.above? place) t x) :
    Collects root wanted records (root.walk.filterMap read) := by
  refine ⟨root.places.filter fun place => (read (root.visitAt place)).isSome,
    root.places_sorted.filter _, ?_, ?_⟩
  · intro place
    rw [List.mem_filter, Tree.mem_places]
    constructor
    · rintro ⟨⟨t, ht⟩, hread⟩
      rw [Tree.visitAt_eq ht] at hread
      exact ⟨t, ht, (hwanted _ t).1 hread⟩
    · rintro ⟨t, ht, hw⟩
      rw [Tree.visitAt_eq ht]
      exact ⟨⟨t, ht⟩, (hwanted _ t).2 hw⟩
  · rw [root.walk_eq_map, List.filterMap_map]
    apply forall₂_filterMap
    intro place hplace x hx
    obtain ⟨t, ht⟩ := Tree.mem_places.1 hplace
    rw [Tree.visitAt_eq ht] at hx
    exact ⟨t, ht, hrecords place t x ht hx⟩

/-- What is read off the nodes of some kinds, without a look at their parents. -/
theorem collects_nodes {records : Tree → α → Prop} {ofKind : Tree → Bool}
    {read : Tree → Option α}
    (hwanted : ∀ t, ofKind t = true ∧ (read t).isSome = true ↔ wanted t)
    (hrecords : ∀ place t x, root.at? place = some t → read t = some x → records t x) :
    Collects root wanted (fun _ => records)
      (((root.walk.map (·.2)).filter ofKind).filterMap read) := by
  rw [List.filterMap_filter, List.filterMap_map]
  apply collects_walk
  · intro parent t
    rw [← hwanted t, Function.comp_apply]
    cases ofKind t <;> simp
  · intro place t x ht hx
    rw [Function.comp_apply, Option.ite_none_right_eq_some] at hx
    exact hrecords place t x ht hx.2

theorem collects_all {records : Tree → α → Prop} {ofKind : Tree → Bool} {read : Tree → α}
    (hwanted : ∀ t, ofKind t = true ↔ wanted t)
    (hrecords : ∀ place t, root.at? place = some t → records t (read t)) :
    Collects root wanted (fun _ => records) (((root.walk.map (·.2)).filter ofKind).map read) := by
  rw [← List.filterMap_eq_map]
  apply collects_nodes
  · simpa using hwanted
  · intro place t x ht hx
    cases hx
    exact hrecords place t ht

variable {records : Option Tree → Tree → α → Prop} {found : List α}

theorem Collects.exists_node (h : Collects root wanted records found) {x : α} (hx : x ∈ found) :
    ∃ place t, root.at? place = some t ∧ records (root.above? place) t x := by
  obtain ⟨places, -, -, hfound⟩ := h
  obtain ⟨place, -, t, ht, hrecord⟩ := forall₂_mem_right hfound hx
  exact ⟨place, t, ht, hrecord⟩

/-- Records with the spans of their nodes never go back in the source. -/
theorem Collects.ordered (hroot : root.Nested source) (h : Collects root wanted records found)
    {spanOf : α → Span} (hspan : ∀ parent t x, records parent t x → spanOf x = t.span) :
    (found.map spanOf).Pairwise fun a b => a.start ≤ b.start := by
  obtain ⟨places, hsorted, -, hfound⟩ := h
  obtain ⟨hlength, hget⟩ := List.forall₂_iff_get.1 hfound
  rw [List.pairwise_map, List.pairwise_iff_getElem]
  intro i j hi hj hij
  obtain ⟨t, ht, hx⟩ := hget i (by omega) hi
  obtain ⟨u, hu, hy⟩ := hget j (by omega) hj
  have hlt := List.pairwise_iff_getElem.1 hsorted i j (by omega) (by omega) hij
  have hle := hroot.start_le hlt ht hu
  rwa [← hspan _ t _ hx, ← hspan _ u _ hy] at hle

theorem Collects.fits (hroot : root.Nested source) (h : Collects root wanted records found)
    {spanOf : α → Span} (hspan : ∀ parent t x, records parent t x → spanOf x = t.span) :
    ∀ s ∈ found.map spanOf, s.Fits source := by
  rw [List.forall_mem_map]
  intro x hx
  obtain ⟨place, t, ht, hrecord⟩ := h.exists_node hx
  rw [hspan _ t x hrecord]
  exact (hroot.at_place ht).laid.fits

end

/-! ## Faults -/

theorem anyFault_eq {parent : Tree} {ts : List Tree}
    (h : ∀ t ∈ ts, ∀ p, t.hasFault = (t.preorder p).any fun visit => visit.2.isFault) :
    Tree.anyFault ts = (preorderAll parent ts).any fun visit => visit.2.isFault := by
  induction ts with
  | nil => rfl
  | cons t ts ih =>
    rw [Tree.anyFault, preorderAll, List.any_append, h t List.mem_cons_self,
      ih fun u hu => h u (List.mem_cons_of_mem _ hu)]

/-- A tree has a fault if one of its nodes is one. -/
theorem Tree.hasFault_eq (t : Tree) (parent : Option Tree) :
    t.hasFault = (t.preorder parent).any fun visit => visit.2.isFault := by
  induction t using Tree.child_induction generalizing parent with
  | node k n r s cs ih => rw [Tree.hasFault, Tree.preorder, List.any_cons, anyFault_eq ih]

theorem faultsIn_eq {parent : Tree} {ts : List Tree}
    (h : ∀ t ∈ ts, ∀ p, t.countFaults = (t.preorder p).countP fun visit => visit.2.isFault) :
    Tree.faultsIn ts = (preorderAll parent ts).countP fun visit => visit.2.isFault := by
  induction ts with
  | nil => rfl
  | cons t ts ih =>
    rw [Tree.faultsIn, preorderAll, List.countP_append, h t List.mem_cons_self,
      ih fun u hu => h u (List.mem_cons_of_mem _ hu)]

/-- Trees that are not gone into have nothing to count. -/
theorem Tree.countFaults_eq (t : Tree) (parent : Option Tree) :
    t.countFaults = (t.preorder parent).countP fun visit => visit.2.isFault := by
  induction t using Tree.child_induction generalizing parent with
  | node k n r s cs ih =>
    have hbelow : Tree.faultsIn cs =
        (preorderAll (.node k n r s cs) cs).countP fun visit => visit.2.isFault := faultsIn_eq ih
    rw [Tree.countFaults, Tree.preorder, List.countP_cons, ← hbelow]
    cases hall : (Tree.node k n r s cs).hasFault with
    | true => exact Nat.add_comm _ _
    | false =>
      rw [Tree.hasFault_eq _ parent, Tree.preorder, List.any_cons, Bool.or_eq_false_iff] at hall
      have hnone : Tree.faultsIn cs = 0 := by
        rw [hbelow, List.countP_eq_zero]
        intro visit hvisit hfault
        have hany := List.any_eq_false.1 hall.2 visit hvisit
        exact hany hfault
      rw [hnone, Nat.zero_add]
      rfl

/-! ## The snapshot -/

namespace Tree

-- What each list of a snapshot has a record of. A node that lacks a part which the
-- record would name has none.

def IsClass (t : Tree) : Prop := t.named = true ∧ t.kind = .classDecl

def IsElement (t : Tree) : Prop := t.kind = .selfClosingElement ∨ t.kind = .openingElement

def IsCall (t : Tree) : Prop := t.kind = .call ∧ (t.child? .callee).isSome = true

def IsMember (t : Tree) : Prop :=
  t.kind = .member ∧ (t.child? .object).isSome = true ∧ (t.child? .property).isSome = true

def IsAssignment (t : Tree) : Prop :=
  (t.kind = .assignment ∨ t.kind = .augmentedAssignment ∧ (t.child? .operator).isSome = true) ∧
    (t.child? .left).isSome = true ∧ (t.child? .right).isSome = true

def IsImport (t : Tree) : Prop := t.kind = .importStatement ∧ t.origin?.isSome = true

def IsFunction (t : Tree) : Prop := t.kind = .functionDecl ∨ t.kind = .arrow

end Tree

/-- The spans of each list of constructs. -/
def spanLists (s : Snapshot) : List (List Span) :=
  [s.classes.map (·.span), s.elements.map (·.span), s.calls.map (·.span), s.members.map (·.span),
    s.assignments.map (·.span), s.imports.map (·.span), s.functions.map (·.span)]

/-- The snapshot says what stands in the source, as the tree lays it out. -/
structure Depicts (source : Text) (root : Tree) (s : Snapshot) : Prop where
  source_eq : s.source = source
  faults : s.errorCount = root.walk.countP fun visit => visit.2.isFault
  classes : Collects root Tree.IsClass (fun _ => ClassOf source) s.classes
  elements : Collects root Tree.IsElement (fun _ => ElementOf source) s.elements
  calls : Collects root Tree.IsCall (fun _ => CallOf source) s.calls
  members : Collects root Tree.IsMember (fun _ => MemberOf source) s.members
  assignments : Collects root Tree.IsAssignment (fun _ => AssignmentOf source) s.assignments
  imports : Collects root Tree.IsImport (fun _ => ImportOf source) s.imports
  functions : Collects root Tree.IsFunction (FunctionOf source) s.functions
  ordered : ∀ spans ∈ spanLists s, spans.Pairwise fun a b => a.start ≤ b.start
  fits : s.SpansFit
  nested_or_apart : ∀ c ∈ s.classes, ∀ d ∈ s.classes,
    c.span.Apart d.span ∨ c.span.contains d.span = true ∨ d.span.contains c.span = true

section
variable {source : Text} {root : Tree} (h : root.Nested source) (path : String)
  (language : Language)
include h

theorem Tree.Nested.classes : Collects root Tree.IsClass (fun _ => ClassOf source)
    (extract path language source root).classes := by
  simp only [extract]
  apply collects_all
  · simp [Tree.IsClass]
  · intro place t ht
    exact (h.at_place ht).classOf

theorem Tree.Nested.elements : Collects root Tree.IsElement (fun _ => ElementOf source)
    (extract path language source root).elements := by
  simp only [extract]
  apply collects_all
  · simp [Tree.IsElement]
  · intro place t ht
    exact (h.at_place ht).elementOf

theorem Tree.Nested.calls : Collects root Tree.IsCall (fun _ => CallOf source)
    (extract path language source root).calls := by
  simp only [extract]
  apply collects_nodes
  · intro t
    cases hcallee : t.child? .callee <;> simp [Tree.IsCall, extractCall?, hcallee]
  · intro place t x ht hx
    exact (h.at_place ht).callOf hx

theorem Tree.Nested.members : Collects root Tree.IsMember (fun _ => MemberOf source)
    (extract path language source root).members := by
  simp only [extract]
  apply collects_nodes
  · intro t
    cases hobject : t.child? .object <;> cases hproperty : t.child? .property <;>
      simp [Tree.IsMember, extractMember?, hobject, hproperty]
  · intro place t x ht hx
    exact (h.at_place ht).memberOf hx

theorem Tree.Nested.assignments : Collects root Tree.IsAssignment (fun _ => AssignmentOf source)
    (extract path language source root).assignments := by
  simp only [extract]
  apply collects_nodes
  · intro t
    by_cases hkind : t.kind = .assignment
    · cases hleft : t.child? .left <;> cases hright : t.child? .right <;>
        simp [Tree.IsAssignment, extractAssignment?, hkind, hleft, hright]
    · cases hoperator : t.child? .operator <;> cases hleft : t.child? .left <;>
        cases hright : t.child? .right <;>
        simp [Tree.IsAssignment, extractAssignment?, hkind, hoperator, hleft, hright]
  · intro place t x ht hx
    exact (h.at_place ht).assignmentOf hx

theorem Tree.Nested.imports : Collects root Tree.IsImport (fun _ => ImportOf source)
    (extract path language source root).imports := by
  simp only [extract]
  apply collects_nodes
  · intro t
    rw [extractImport?_isSome]
    simp [Tree.IsImport]
  · intro place t x ht hx
    exact (h.at_place ht).importOf hx

theorem Tree.Nested.functions : Collects root Tree.IsFunction (FunctionOf source)
    (extract path language source root).functions := by
  simp only [extract]
  apply collects_walk
  · intro parent t
    simp only [extractFunction?, Tree.IsFunction]
    split <;> simp_all
  · intro place t x ht hx
    exact (h.at_place ht).functionOf (fun u hu => h.above_place hu) hx

/-- In no list of the snapshot does a construct start before the one ahead of it. -/
theorem Tree.Nested.spans_ordered : ∀ spans ∈ spanLists (extract path language source root),
    spans.Pairwise fun a b => a.start ≤ b.start := by
  simp only [spanLists, List.forall_mem_cons]
  refine ⟨(h.classes path language).ordered h ?_, (h.elements path language).ordered h ?_,
    (h.calls path language).ordered h ?_, (h.members path language).ordered h ?_,
    (h.assignments path language).ordered h ?_, (h.imports path language).ordered h ?_,
    (h.functions path language).ordered h ?_, by simp⟩
  all_goals exact fun _ _ _ hrecord => hrecord.span

theorem Tree.Nested.spansFit : (extract path language source root).SpansFit := by
  intro s hs
  simp only [Snapshot.spans, List.mem_append, List.mem_flatMap] at hs
  rcases hs with (((((⟨c, hc, hs⟩ | ⟨e, he, hs⟩) | hs) | hs) | hs) | hs) | hs
  · obtain ⟨place, t, ht, hc⟩ := (h.classes path language).exists_node hc
    exact (h.at_place ht).class_fits hc hs
  · obtain ⟨place, t, ht, he⟩ := (h.elements path language).exists_node he
    exact (h.at_place ht).element_fits he hs
  · exact (h.calls path language).fits h (fun _ _ _ hrecord => hrecord.span) s hs
  · exact (h.members path language).fits h (fun _ _ _ hrecord => hrecord.span) s hs
  · exact (h.assignments path language).fits h (fun _ _ _ hrecord => hrecord.span) s hs
  · exact (h.imports path language).fits h (fun _ _ _ hrecord => hrecord.span) s hs
  · exact (h.functions path language).fits h (fun _ _ _ hrecord => hrecord.span) s hs

end

/-- The walk visits every node once, with its parent. -/
theorem Tree.collects_visits (root : Tree) :
    Collects root (fun _ => True) (fun parent t visit => visit = (parent, t)) root.walk := by
  rw [← List.filterMap_some (l := root.walk)]
  apply collects_walk
  · simp
  · intro place t x _ hx
    exact (Option.some.inj hx).symm

/-- The walk over a nested tree visits every node once, in preorder, and the snapshot says of
each construct what stands in the source. -/
theorem a_nested_tree_gives_a_faithful_snapshot (path : String) (language : Language)
    (source : Text) (root : Tree) (h : root.Nested source) :
    Collects root (fun _ => True) (fun parent t visit => visit = (parent, t)) root.walk ∧
      Depicts source root (extract path language source root) := by
  have hclasses := h.classes path language
  have hfaults : root.countFaults = root.walk.countP fun visit => visit.2.isFault := by
    rw [root.walk_eq_preorder]
    exact root.countFaults_eq none
  refine ⟨root.collects_visits, rfl, hfaults, hclasses, h.elements path language,
    h.calls path language, h.members path language, h.assignments path language,
    h.imports path language, h.functions path language, h.spans_ordered path language,
    h.spansFit path language, ?_⟩
  intro c hc d hd
  obtain ⟨p, t, ht, hc⟩ := hclasses.exists_node hc
  obtain ⟨q, u, hu, hd⟩ := hclasses.exists_node hd
  rw [hc.span, hd.span]
  exact h.nested_or_apart ht hu

/-- A class with a field and a method of two statements. -/
def Tree.sampleSource : Text := "class A\x7bp;m(x)\x7bf();g\x7d\x7d".toList

/-- The tree of `sampleSource`. -/
def Tree.sample : Tree :=
  let place (start stop : Nat) : Span := .onLine 1 0 start stop
  let token (text : String) (start : Nat) : Tree :=
    .node (.token text) false none (place start (start + text.length)) []
  let word (role : Option Role) (start : Nat) : Tree :=
    .node .other true role (place start (start + 1)) []
  let field := .node .fieldDefinition true none (place 8 9) [word (some .property) 8]
  let params := .node .other true (some .parameters) (place 11 14)
    [token "(" 11, word none 12, token ")" 13]
  let arguments := .node .other true (some .arguments) (place 16 18) [token "(" 16, token ")" 17]
  let call := .node .call true none (place 15 18) [word (some .callee) 15, arguments]
  let block := .node .block true (some .body) (place 14 21)
    [token "\x7b" 14, .node .other true none (place 15 19) [call, token ";" 18], word none 19,
      token "\x7d" 20]
  let method := .node .method true none (place 10 21) [word (some .name) 10, params, block]
  let body := .node .other true (some .body) (place 7 22)
    [token "\x7b" 7, field, token ";" 9, method, token "\x7d" 21]
  .node .program true none (place 0 22)
    [.node .classDecl true none (place 0 22) [token "class" 0, word (some .name) 6, body]]

theorem the_sample_tree_gives_a_faithful_snapshot :
    Tree.sample.Nested Tree.sampleSource ∧
      (extract "A.js" .javaScript Tree.sampleSource Tree.sample).classes.map
        (fun c => (c.properties.map (·.name),
          c.members.map fun m => (m.name, m.statements.map (·.text)))) =
          [(["p"], [("m", ["f();".toList, "g".toList])])] ∧
      Collects Tree.sample (fun _ => True) (fun parent t visit => visit = (parent, t))
        Tree.sample.walk ∧
      Depicts Tree.sampleSource Tree.sample
        (extract "A.js" .javaScript Tree.sampleSource Tree.sample) := by
  have h : Tree.sample.Nested Tree.sampleSource := by decide +kernel
  exact ⟨h, by decide +kernel, a_nested_tree_gives_a_faithful_snapshot _ _ _ _ h⟩

end Uplift.Script
