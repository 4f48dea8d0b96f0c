-- What a snapshot records of a node. The nodes of a nested tree lie in the source,
-- and what a record says is read off the source under its node: texts are what
-- stands there, members lie side by side in the body of their class, and
-- statements in the body of their method.
import Uplift.Proofs.Script.Nested

namespace Uplift.Script

/-! ## What a record says -/

/-- The nodes that the parameters of a method or the arguments of a call stand on. -/
def Tree.partsOf (t : Tree) (r : Role) : List Tree := ((t.child? r).map (·.parts)).getD []

/-- What stands between the braces of a class. -/
def Tree.classMembers (t : Tree) : List Tree := ((t.child? .body).map (·.namedChildren)).getD []

/-- The node with the name of the module that is imported. -/
def Tree.origin? (t : Tree) : Option Tree :=
  (t.child? .source).or
    ((t.namedChildren.find? (·.kind == .importRequire)).bind (·.child? .source))

section
variable (source : Text)

/-- The text is what stands under the node, or both are missing. -/
def Spells (node : Option Tree) (text : Option String) : Prop :=
  Option.Rel (fun c s => c.span.Reads source s.toList) node text

/-- The statements of a body lie side by side in it. Comments are none. -/
structure BodyOf (t : Tree) (b : Body) : Prop where
  span : b.span = t.span
  text : b.span.Reads source b.text
  statements : List.Forall₂ (fun c s => s.span = c.span ∧ s.span.Reads source s.text)
    t.parts b.statements
  inside : ∀ s ∈ b.statements, b.span.contains s.span = true
  ordered : b.statements.Pairwise fun s s' => s.span.stop ≤ s'.span.start

/-- The name, the parameters and the body of a method lie in it. A method that the tree gives no
name has no place for one either. -/
structure MethodOf (t : Tree) (m : Method) : Prop where
  span : m.span = t.span
  text : m.span.Reads source m.text
  name : ∀ c, t.child? .name = some c →
    m.nameSpan = c.span ∧ m.span.contains m.nameSpan = true ∧
      m.nameSpan.Reads source m.name.toList
  nameless : t.child? .name = none → m.nameSpan = Span.none ∧ m.name = ""
  params : List.Forall₂ (fun c p => c.span.contains p.span = true ∧
    m.span.contains p.span = true ∧ p.span.Reads source p.name.toList) (t.partsOf .parameters)
    m.params
  body : Option.Rel (BodyOf source) ((t.child? .body).filter (·.kind == .block)) m.body
  body_inside : ∀ b ∈ m.body, m.span.contains b.span = true

structure PropertyOf (t : Tree) (p : Property) : Prop where
  span : p.span = t.span
  name : Spells source t.fieldName? (some p.name)

/-- The methods of a class lie side by side in its body. -/
structure ClassOf (t : Tree) (c : ClassDecl) : Prop where
  span : c.span = t.span
  name : Spells source (t.child? .name) c.name
  body : ∀ b, t.child? .body = some b →
    c.bodySpan = b.span ∧ c.span.contains c.bodySpan = true
  bodiless : t.child? .body = none → c.bodySpan = Span.none ∧ c.members = [] ∧ c.properties = []
  members : List.Forall₂ (MethodOf source) (t.classMembers.filter (·.kind == .method)) c.members
  inside : ∀ m ∈ c.members, c.bodySpan.contains m.span = true
  ordered : c.members.Pairwise fun m m' => m.span.stop ≤ m'.span.start
  properties : List.Forall₂ (PropertyOf source)
    ((t.classMembers.filter (·.kind == .fieldDefinition)).filter fun p => p.fieldName?.isSome)
    c.properties
  properties_inside : ∀ p ∈ c.properties, c.bodySpan.contains p.span = true

/-- The value of an attribute is written at the node. Quotes around it do not count. -/
def ValueOf (t : Tree) : AttributeValue → Prop
  | .string s => ∃ text, t.span.Reads source text ∧ s = String.ofList (unquote text)
  | .expression s | .element s => t.span.Reads source s.toList

structure AttributeOf (t : Tree) (a : Attribute) : Prop where
  span : a.span = t.span
  name : Spells source t.namedChildren.head? (some a.name)
  value : Option.Rel (ValueOf source) t.namedChildren[1]? a.value

structure ElementOf (t : Tree) (e : Element) : Prop where
  span : e.span = t.span
  name : ∃ name, Spells source (t.child? .name) name ∧ e.name = name.getD ""
  attributes : List.Forall₂ (AttributeOf source)
    ((t.namedChildren.filter (·.kind == .tagAttribute)).filter fun a =>
      a.namedChildren.head?.isSome) e.attributes
  inside : ∀ a ∈ e.attributes, e.span.contains a.span = true

structure CallOf (t : Tree) (c : Call) : Prop where
  span : c.span = t.span
  callee : Spells source (t.child? .callee) (some c.callee)
  arguments : List.Forall₂ (fun a text => a.span.Reads source text) (t.partsOf .arguments)
    c.arguments

structure MemberOf (t : Tree) (m : Member) : Prop where
  span : m.span = t.span
  object : Spells source (t.child? .object) (some m.object)
  property : Spells source (t.child? .property) (some m.property)

structure AssignmentOf (t : Tree) (a : Assignment) : Prop where
  span : a.span = t.span
  left : Spells source (t.child? .left) (some a.left)
  right : Spells source (t.child? .right) (some a.right)
  plain : t.kind = .assignment → a.operator = "="
  augmented : t.kind ≠ .assignment → Spells source (t.child? .operator) (some a.operator)

structure ImportOf (t : Tree) (i : Import) : Prop where
  span : i.span = t.span
  specifier : ∃ c text, t.origin? = some c ∧ t.span.contains c.span = true ∧
    c.span.Reads source text ∧ i.specifier = String.ofList (unquote text)

/-- An arrow function has the name of the variable that it initializes. -/
structure FunctionOf (parent : Option Tree) (t : Tree) (f : Function) : Prop where
  span : f.span = t.span
  kind : f.kind = .declaration ∧ t.kind = .functionDecl ∨ f.kind = .arrow ∧ t.kind = .arrow
  declared : t.kind = .functionDecl → Spells source (t.child? .name) f.name
  initialized : t.kind = .arrow →
    Spells source ((parent.filter (·.kind == .declarator)).bind (·.child? .name)) f.name

end

/-! ## Spans of records -/

theorem forall₂_mem_right {α β : Type} {R : α → β → Prop} {xs : List α} {ys : List β}
    (h : List.Forall₂ R xs ys) {y : β} (hy : y ∈ ys) : ∃ x ∈ xs, R x y := by
  induction h with
  | nil => cases hy
  | cons hxy hrest ih =>
    rcases List.mem_cons.1 hy with rfl | hy
    · exact ⟨_, List.mem_cons_self, hxy⟩
    · obtain ⟨x, hx, hxy⟩ := ih hy
      exact ⟨x, List.mem_cons_of_mem _ hx, hxy⟩

theorem BodyOf.fits {source : Text} {t : Tree} {b : Body} (h : BodyOf source t b) {s : Span}
    (hs : s ∈ b.span :: b.statements.map (·.span)) : s.Fits source := by
  rcases List.mem_cons.1 hs with rfl | hs
  · exact h.text.fits
  · obtain ⟨statement, hstatement, rfl⟩ := List.mem_map.1 hs
    obtain ⟨_, _, _, hreads⟩ := forall₂_mem_right h.statements hstatement
    exact hreads.fits

theorem MethodOf.fits {source : Text} {t : Tree} {m : Method} (h : MethodOf source t m) {s : Span}
    (hs : s ∈ m.spans) : s.Fits source := by
  simp only [Method.spans, List.cons_append, List.mem_cons, List.mem_append, List.mem_map] at hs
  rcases hs with rfl | rfl | ⟨p, hp, rfl⟩ | hs
  · exact h.text.fits
  · cases hname : t.child? .name with
    | none =>
      rw [(h.nameless hname).1]
      exact Span.fits_none source
    | some c => exact (h.name c hname).2.2.fits
  · obtain ⟨_, _, _, _, hreads⟩ := forall₂_mem_right h.params hp
    exact hreads.fits
  · cases hbody : m.body with
    | none => simp [hbody] at hs
    | some b =>
      rw [hbody] at hs
      have hrel := h.body
      rw [hbody] at hrel
      generalize (t.child? .body).filter (·.kind == .block) = node at hrel
      cases hrel with
      | some hb => exact hb.fits hs

/-! ## Reading records -/

theorem forall₂_filterMap {α β : Type} {R : α → β → Prop} {read : α → Option β} {l : List α}
    (h : ∀ a ∈ l, ∀ b, read a = some b → R a b) :
    List.Forall₂ R (l.filter fun a => (read a).isSome) (l.filterMap read) := by
  induction l with
  | nil => exact .nil
  | cons a l ih =>
    have htail := ih fun x hx => h x (List.mem_cons_of_mem _ hx)
    cases ha : read a with
    | none => simpa [ha] using htail
    | some b => simpa [ha] using ⟨h a List.mem_cons_self b ha, htail⟩

/-- A property without a name is not recorded. -/
theorem extractProperty?_isSome (source : Text) (t : Tree) :
    (extractProperty? source t).isSome = t.fieldName?.isSome := by
  unfold extractProperty?
  cases t.fieldName? <;> rfl

theorem extractAttribute?_isSome (source : Text) (t : Tree) :
    (extractAttribute? source t).isSome = t.namedChildren.head?.isSome := by
  unfold extractAttribute?
  cases t.namedChildren.head? <;> rfl

theorem extractImport?_isSome (source : Text) (t : Tree) :
    (extractImport? source t).isSome = t.origin?.isSome := by
  change (t.origin?.bind _).isSome = _
  cases t.origin? <;> rfl

namespace Tree.Nested

variable {source : Text} {t c : Tree}

theorem spells {node : Option Tree} (h : ∀ c ∈ node, c.Nested source) :
    Spells source node (node.map (stringOf source)) := by
  cases node with
  | none => exact .none
  | some c => exact .some (h c rfl).reads_string

theorem spells_child? (h : t.Nested source) (r : Role) :
    Spells source (t.child? r) ((t.child? r).map (stringOf source)) :=
  spells fun _ hc => (h.of_child? hc).1

theorem of_partsOf {r : Role} (h : t.Nested source) (hc : c ∈ t.partsOf r) :
    c.Nested source ∧ t.span.contains c.span = true := by
  unfold Tree.partsOf at hc
  cases hr : t.child? r with
  | none => simp [hr] at hc
  | some list =>
    obtain ⟨hlist, hin⟩ := h.of_child? hr
    obtain ⟨hc, hinside⟩ := hlist.of_part (by simpa [hr] using hc)
    exact ⟨hc, Span.contains_trans hin hinside⟩

/-- Some of the children of a node lie side by side. -/
theorem sublist_ordered {cs : List Tree} (h : t.Nested source) (hcs : cs.Sublist t.children) :
    cs.Pairwise fun a b => a.span.stop ≤ b.span.start :=
  h.laid.ordered.sublist hcs

theorem bodyOf (h : t.Nested source) : BodyOf source t (extractBody source t) := by
  have hparts : t.parts.Sublist t.children := List.filter_sublist.trans List.filter_sublist
  refine ⟨rfl, h.reads, ?_, ?_, ?_⟩
  · unfold extractBody
    rw [List.forall₂_map_right_iff, List.forall₂_same]
    intro c hc
    exact ⟨rfl, (h.of_part hc).1.reads⟩
  · simp only [extractBody, List.forall_mem_map]
    intro c hc
    exact (h.of_part hc).2
  · simp only [extractBody, List.pairwise_map]
    exact h.sublist_ordered hparts

/-- A parameter is bound by a node under its own. -/
theorem param (h : t.Nested source) :
    t.span.contains (extractParam source t).span = true ∧
      (extractParam source t).span.Reads source (extractParam source t).name.toList := by
  have hbinding : ∀ c, (t.child? .pattern).or (t.child? .left) = some c →
      c.Nested source ∧ t.span.contains c.span = true := by
    intro c hc
    rcases Option.or_eq_some_iff.1 hc with hc | ⟨-, hc⟩
    · exact h.of_child? hc
    · exact h.of_child? hc
  unfold extractParam
  cases hc : (t.child? .pattern).or (t.child? .left) with
  | none => exact ⟨Span.contains_self _, h.reads_string⟩
  | some c => exact ⟨(hbinding c hc).2, (hbinding c hc).1.reads_string⟩

theorem methodOf (h : t.Nested source) : MethodOf source t (extractMethod source t) := by
  refine ⟨rfl, h.reads, ?_, ?_, ?_, ?_, ?_⟩
  · intro c hc
    obtain ⟨hnested, hinside⟩ := h.of_child? hc
    simp only [extractMethod, hc, Option.map_some, Option.getD_some, true_and]
    exact ⟨hinside, hnested.reads_string⟩
  · intro hc
    simp [extractMethod, hc]
  · have hparams : (extractMethod source t).params =
        (t.partsOf .parameters).map (extractParam source) := by
      simp only [extractMethod, Tree.partsOf]
      cases t.child? .parameters <;> rfl
    rw [hparams, List.forall₂_map_right_iff, List.forall₂_same]
    intro c hc
    obtain ⟨hnested, hinside⟩ := h.of_partsOf hc
    obtain ⟨hin, hreads⟩ := hnested.param
    exact ⟨hin, Span.contains_trans hinside hin, hreads⟩
  · simp only [extractMethod]
    cases hb : (t.child? .body).filter (·.kind == .block) with
    | none => exact .none
    | some b => exact .some (h.of_child? (Option.filter_eq_some_iff.1 hb).1).1.bodyOf
  · simp only [extractMethod, Option.mem_def, Option.map_eq_some_iff]
    rintro _ ⟨b, hb, rfl⟩
    exact (h.of_child? (Option.filter_eq_some_iff.1 hb).1).2

theorem of_classMember (h : t.Nested source) (hc : c ∈ t.classMembers) :
    c.Nested source ∧ ∃ b, t.child? .body = some b ∧ b.span.contains c.span = true := by
  unfold Tree.classMembers at hc
  cases hb : t.child? .body with
  | none => simp [hb] at hc
  | some b =>
    rw [hb] at hc
    have hmem : c ∈ b.children := List.mem_of_mem_filter hc
    obtain ⟨hnested, -⟩ := h.of_child? hb
    exact ⟨hnested.child hmem, b, rfl, hnested.laid.inside c hmem⟩

theorem classMembers_ordered (h : t.Nested source) :
    t.classMembers.Pairwise fun a b => a.span.stop ≤ b.span.start := by
  unfold Tree.classMembers
  cases hb : t.child? .body with
  | none => exact .nil
  | some b => exact (h.of_child? hb).1.sublist_ordered List.filter_sublist

theorem of_fieldName? (h : t.Nested source) (hc : t.fieldName? = some c) :
    c.Nested source ∧ t.span.contains c.span = true := by
  rcases Option.or_eq_some_iff.1 hc with hc | ⟨-, hc⟩
  · exact h.of_child? hc
  · exact h.of_child? hc

theorem propertyOf {p : Property} (h : t.Nested source)
    (hp : extractProperty? source t = some p) : PropertyOf source t p := by
  simp only [extractProperty?, Option.bind_eq_bind, Option.bind_eq_some_iff] at hp
  obtain ⟨name, hname, hp⟩ := hp
  cases hp
  exact ⟨rfl, by rw [hname]; exact .some (h.of_fieldName? hname).1.reads_string⟩

theorem classOf (h : t.Nested source) : ClassOf source t (extractClass source t) := by
  have hmembers : (extractClass source t).members =
      (t.classMembers.filter (·.kind == .method)).map (extractMethod source) := rfl
  have hproperties : (extractClass source t).properties =
      (t.classMembers.filter (·.kind == .fieldDefinition)).filterMap
        (extractProperty? source) := rfl
  have hbodySpan : ∀ {b}, t.child? .body = some b → (extractClass source t).bodySpan = b.span := by
    intro b hb
    simp [extractClass, hb]
  have hinside : ∀ c ∈ t.classMembers,
      (extractClass source t).bodySpan.contains c.span = true := by
    intro c hc
    obtain ⟨-, b, hb, hin⟩ := h.of_classMember hc
    rw [hbodySpan hb]
    exact hin
  refine ⟨rfl, h.spells_child? .name, ?_, ?_, ?_, ?_, ?_, ?_, ?_⟩
  · intro b hb
    rw [hbodySpan hb]
    exact ⟨rfl, (h.of_child? hb).2⟩
  · intro hb
    simp [extractClass, hb]
  · rw [hmembers, List.forall₂_map_right_iff, List.forall₂_same]
    intro c hc
    exact (h.of_classMember (List.mem_of_mem_filter hc)).1.methodOf
  · rw [hmembers, List.forall_mem_map]
    intro c hc
    exact hinside c (List.mem_of_mem_filter hc)
  · rw [hmembers, List.pairwise_map]
    exact h.classMembers_ordered.sublist List.filter_sublist
  · simp only [hproperties, ← extractProperty?_isSome source]
    apply forall₂_filterMap
    intro c hc p hp
    exact (h.of_classMember (List.mem_of_mem_filter hc)).1.propertyOf hp
  · rw [hproperties]
    intro p hp
    obtain ⟨c, hc, hp⟩ := List.mem_filterMap.1 hp
    have hmem := List.mem_of_mem_filter hc
    rw [((h.of_classMember hmem).1.propertyOf hp).span]
    exact hinside c hmem

theorem class_fits (h : t.Nested source) {c : ClassDecl} (hc : ClassOf source t c) {s : Span}
    (hs : s ∈ c.spans) : s.Fits source := by
  simp only [ClassDecl.spans, List.cons_append, List.mem_cons, List.mem_append, List.mem_map,
    List.mem_flatMap] at hs
  rcases hs with rfl | rfl | ⟨p, hp, rfl⟩ | ⟨m, hm, hs⟩
  · rw [hc.span]
    exact h.laid.fits
  · cases hbody : t.child? .body with
    | none =>
      rw [(hc.bodiless hbody).1]
      exact Span.fits_none source
    | some b =>
      rw [(hc.body b hbody).1]
      exact (h.of_child? hbody).1.laid.fits
  · obtain ⟨u, hu, hproperty⟩ := forall₂_mem_right hc.properties hp
    rw [hproperty.span]
    exact (h.of_classMember (List.mem_of_mem_filter (List.mem_of_mem_filter hu))).1.laid.fits
  · obtain ⟨u, _, hmethod⟩ := forall₂_mem_right hc.members hm
    exact hmethod.fits hs

/-! ## Elements and expressions -/

theorem attributeOf {a : Attribute} (h : t.Nested source)
    (ha : extractAttribute? source t = some a) : AttributeOf source t a := by
  have hnested : ∀ c ∈ t.namedChildren, c.Nested source := fun c hc =>
    h.child (List.mem_of_mem_filter hc)
  simp only [extractAttribute?, Option.bind_eq_bind, Option.bind_eq_some_iff] at ha
  obtain ⟨name, hname, ha⟩ := ha
  cases ha
  refine ⟨rfl, ?_, ?_⟩
  · rw [hname]
    exact .some (hnested name (List.mem_of_head? hname)).reads_string
  · cases hv : t.namedChildren[1]? with
    | none => exact .none
    | some v =>
      have hv := hnested v (List.mem_of_getElem? hv)
      refine .some ?_
      dsimp only
      split
      · exact ⟨_, hv.reads, rfl⟩
      · exact hv.reads_string
      · exact hv.reads_string

theorem elementOf (h : t.Nested source) : ElementOf source t (extractElement source t) := by
  have hattributes : (extractElement source t).attributes =
      (t.namedChildren.filter (·.kind == .tagAttribute)).filterMap
        (extractAttribute? source) := rfl
  have hchild : ∀ c ∈ t.namedChildren.filter (·.kind == .tagAttribute), c ∈ t.children :=
    fun c hc => List.mem_of_mem_filter (List.mem_of_mem_filter hc)
  refine ⟨rfl, ⟨_, h.spells_child? .name, rfl⟩, ?_, ?_⟩
  · simp only [hattributes, ← extractAttribute?_isSome source]
    apply forall₂_filterMap
    intro c hc a ha
    exact (h.child (hchild c hc)).attributeOf ha
  · rw [hattributes]
    intro a ha
    obtain ⟨c, hc, ha⟩ := List.mem_filterMap.1 ha
    rw [((h.child (hchild c hc)).attributeOf ha).span]
    exact h.laid.inside c (hchild c hc)

theorem element_fits (h : t.Nested source) {e : Element} (he : ElementOf source t e) {s : Span}
    (hs : s ∈ e.span :: e.attributes.map (·.span)) : s.Fits source := by
  rcases List.mem_cons.1 hs with rfl | hs
  · rw [he.span]
    exact h.laid.fits
  · obtain ⟨a, ha, rfl⟩ := List.mem_map.1 hs
    obtain ⟨u, hu, hattribute⟩ := forall₂_mem_right he.attributes ha
    rw [hattribute.span]
    refine (h.child ?_).laid.fits
    exact List.mem_of_mem_filter (List.mem_of_mem_filter (List.mem_of_mem_filter hu))

theorem spells_some {r : Role} (h : t.Nested source) (hc : t.child? r = some c) :
    Spells source (t.child? r) (some (stringOf source c)) := by
  have hspells := h.spells_child? r
  rwa [hc, Option.map_some, ← hc] at hspells

theorem callOf {x : Call} (h : t.Nested source) (hx : extractCall? source t = some x) :
    CallOf source t x := by
  simp only [extractCall?, Option.bind_eq_bind, Option.bind_eq_some_iff] at hx
  obtain ⟨callee, hcallee, hx⟩ := hx
  cases hx
  refine ⟨rfl, h.spells_some hcallee, ?_⟩
  have harguments : ((t.child? .arguments).map fun a => a.parts.map (textOf source)).getD [] =
      (t.partsOf .arguments).map (textOf source) := by
    unfold Tree.partsOf
    cases t.child? .arguments <;> rfl
  simp only [harguments]
  rw [List.forall₂_map_right_iff, List.forall₂_same]
  intro c hc
  exact (h.of_partsOf hc).1.reads

theorem memberOf {x : Member} (h : t.Nested source) (hx : extractMember? source t = some x) :
    MemberOf source t x := by
  simp only [extractMember?, Option.bind_eq_bind, Option.bind_eq_some_iff] at hx
  obtain ⟨object, hobject, property, hproperty, hx⟩ := hx
  cases hx
  exact ⟨rfl, h.spells_some hobject, h.spells_some hproperty⟩

theorem assignmentOf {x : Assignment} (h : t.Nested source)
    (hx : extractAssignment? source t = some x) : AssignmentOf source t x := by
  by_cases hkind : t.kind = .assignment
  · simp only [extractAssignment?, hkind, beq_self_eq_true, if_true, Option.bind_eq_bind,
      Option.bind_some, Option.bind_eq_some_iff] at hx
    obtain ⟨left, hleft, right, hright, hx⟩ := hx
    cases hx
    exact ⟨rfl, h.spells_some hleft, h.spells_some hright, fun _ => rfl,
      fun hne => absurd hkind hne⟩
  · simp only [extractAssignment?, beq_eq_false_iff_ne.2 hkind, Bool.false_eq_true, if_false,
      Option.bind_eq_bind, Option.bind_eq_some_iff, Option.map_eq_some_iff] at hx
    obtain ⟨_, ⟨operator, hoperator, rfl⟩, left, hleft, right, hright, hx⟩ := hx
    cases hx
    exact ⟨rfl, h.spells_some hleft, h.spells_some hright, fun heq => absurd heq hkind,
      fun _ => h.spells_some hoperator⟩

theorem of_origin? (h : t.Nested source) (hc : t.origin? = some c) :
    c.Nested source ∧ t.span.contains c.span = true := by
  unfold Tree.origin? at hc
  rcases Option.or_eq_some_iff.1 hc with hc | ⟨-, hc⟩
  · exact h.of_child? hc
  · obtain ⟨clause, hclause, hc⟩ := Option.bind_eq_some_iff.1 hc
    have hmem := List.mem_of_mem_filter (List.mem_of_find?_eq_some hclause)
    obtain ⟨hnested, hinside⟩ := (h.child hmem).of_child? hc
    exact ⟨hnested, Span.contains_trans (h.laid.inside clause hmem) hinside⟩

theorem importOf {x : Import} (h : t.Nested source) (hx : extractImport? source t = some x) :
    ImportOf source t x := by
  simp only [extractImport?, Option.bind_eq_bind, Option.bind_eq_some_iff] at hx
  obtain ⟨c, hc, hx⟩ := hx
  cases hx
  obtain ⟨hnested, hinside⟩ := h.of_origin? hc
  exact ⟨rfl, c, _, hc, hinside, hnested.reads, rfl⟩

theorem functionOf {parent : Option Tree} {x : Function} (h : t.Nested source)
    (hparent : ∀ u ∈ parent, u.Nested source)
    (hx : extractFunction? source (parent, t) = some x) : FunctionOf source parent t x := by
  simp only [extractFunction?] at hx
  split at hx
  · rename_i hkind
    cases hx
    refine ⟨rfl, Or.inl ⟨rfl, hkind⟩, fun _ => h.spells_child? .name, ?_⟩
    intro harrow
    rw [hkind] at harrow
    cases harrow
  · rename_i hkind
    cases hx
    refine ⟨rfl, Or.inr ⟨rfl, hkind⟩, ?_, fun _ => spells ?_⟩
    · intro hdeclared
      rw [hkind] at hdeclared
      cases hdeclared
    · intro c hc
      obtain ⟨u, hu, hc⟩ := Option.bind_eq_some_iff.1 hc
      exact ((hparent u (Option.filter_eq_some_iff.1 hu).1).of_child? hc).1
  · cases hx

end Tree.Nested

end Uplift.Script
