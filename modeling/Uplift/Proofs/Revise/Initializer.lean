-- The state that is written into a class. Wherever the assignment goes, the
-- text around it does not depend on the state, and the literal in it reads back
-- as the state that was asked for: merged with the initializer that is already
-- there, or else as it is. An initializer that opens no literal is refused, and
-- so is a class without a body.
import Uplift.Proofs.Revise.StateEdit
import Uplift.Proofs.State.RoundTrip

namespace Uplift

namespace Revise

open State (Props parseLiteral)
open Text (isBlank isBlankText trimStart trimTerminator)

/-! ## Initializers -/

/-- The statement assigns to the state: blanks apart it is `this.state`, one `=`, and the right
side, which blanks and semicolons may follow. -/
def Assigns (statement right : Text) : Prop :=
  ∃ lead gap rest, statement = lead ++ ("this.state".toList ++ (gap ++ '=' :: rest)) ∧
    isBlankText lead = true ∧ isBlankText gap = true ∧ rest.head? ≠ some '=' ∧
    right = trimTerminator rest

/-- `s` is the first statement in the constructor of `c` that assigns to the state. -/
def Initializes (c : ClassDecl) (s : Statement) (right : Text) : Prop :=
  ∃ b front back, c.constructorBody? = some b ∧ b.statements = front ++ s :: back ∧
    Assigns s.text right ∧ ∀ x ∈ front, ∀ r, ¬ Assigns x.text r

theorem assignedState?_eq_some_iff {statement right : Text} :
    assignedState? statement = some right ↔ Assigns statement right := by
  unfold assignedState? Assigns
  simp only [Option.bind_eq_bind, Option.bind_eq_some_iff, Text.dropLead?_eq_some_iff]
  constructor
  · rintro ⟨rest, hstate, rhs, hequals, hright⟩
    obtain ⟨lead, hlead, hblank, _⟩ := Text.exists_trimStart statement
    obtain ⟨gap, hgap, hblank', _⟩ := Text.exists_trimStart rest
    split at hright
    · cases hright
    · rename_i hhead
      refine ⟨lead, gap, rhs, ?_, hblank, hblank', hhead, (Option.some.inj hright).symm⟩
      rw [hlead, hstate, hgap, hequals]
      rfl
  · rintro ⟨lead, gap, rest, rfl, hblank, hblank', hhead, rfl⟩
    refine ⟨gap ++ '=' :: rest, ?_, rest, ?_, if_neg hhead⟩
    · rw [Text.trimStart_blank_append hblank]
      exact Text.trimStart_of_head? fun c hc => by cases hc; decide
    · rw [Text.trimStart_blank_append hblank']
      exact Text.trimStart_of_head? fun c hc => by cases hc; decide

theorem initializes_iff {c : ClassDecl} {s : Statement} {right : Text} :
    Initializes c s right ↔ ∃ b, c.constructorBody? = some b ∧
      initializer? b = some (s, right) := by
  have hnone : ∀ x : Statement, (assignedState? x.text).map (x, ·) = none ↔
      ∀ r, ¬ Assigns x.text r := by
    intro x
    rw [Option.map_eq_none_iff, Option.eq_none_iff_forall_ne_some]
    simp only [ne_eq, assignedState?_eq_some_iff]
  unfold Initializes initializer?
  simp only [List.findSome?_eq_some_iff, hnone]
  constructor
  · rintro ⟨b, front, back, hb, hsplit, hassigns, hfront⟩
    refine ⟨b, hb, front, s, back, hsplit, ?_, hfront⟩
    rw [assignedState?_eq_some_iff.2 hassigns]
    rfl
  · rintro ⟨b, hb, front, x, back, hsplit, hfound, hfront⟩
    obtain ⟨r, hassigns, hpair⟩ := Option.map_eq_some_iff.1 hfound
    cases hpair
    exact ⟨b, front, back, hb, hsplit, assignedState?_eq_some_iff.1 hassigns, hfront⟩

/-- There is only one initializer. -/
theorem Initializes.unique {c : ClassDecl} {s s' : Statement} {right right' : Text}
    (h : Initializes c s right) (h' : Initializes c s' right') : s = s' ∧ right = right' := by
  obtain ⟨b, hb, hi⟩ := initializes_iff.1 h
  obtain ⟨b', hb', hi'⟩ := initializes_iff.1 h'
  obtain rfl : b = b' := Option.some.inj (hb.symm.trans hb')
  exact Prod.mk.inj (Option.some.inj (hi.symm.trans hi'))

theorem Initializes.constructorBody?_ne_none {c : ClassDecl} {s : Statement} {right : Text}
    (h : Initializes c s right) : c.constructorBody? ≠ none := by
  obtain ⟨b, hb, _⟩ := initializes_iff.1 h
  rw [hb]
  exact Option.some_ne_none b

/-! ## Indentation -/

theorem isBlankText_of_isIndent {t : Text} (h : t.all isIndent = true) :
    isBlankText t = true := by
  apply Text.isBlankText_iff.2
  intro c hc
  have hindent := List.all_eq_true.1 h c hc
  unfold isIndent at hindent
  rw [Bool.or_eq_true, beq_iff_eq, beq_iff_eq] at hindent
  rcases hindent with rfl | rfl
  · decide
  · decide

theorem lineIndent?_blank {source indent : Text} {n : Nat}
    (h : lineIndent? source n = some indent) : isBlankText indent = true := by
  unfold lineIndent? at h
  simp only [Option.bind_eq_bind, Option.bind_eq_some_iff] at h
  obtain ⟨_, _, h⟩ := h
  cases h
  exact isBlankText_of_isIndent List.all_takeWhile

theorem firstAnswer_eq_some {α β : Type} {f : α → Option (Option β)} {l : List α} {b : β}
    (h : firstAnswer f l = some (some b)) : ∃ a ∈ l, f a = some (some b) := by
  induction l with
  | nil => cases h
  | cons a l ih =>
    unfold firstAnswer at h
    split at h
    · cases h
    · rename_i hfound
      cases h
      exact ⟨a, by simp, hfound⟩
    · obtain ⟨x, hx, hfound⟩ := ih h
      exact ⟨x, List.mem_cons_of_mem _ hx, hfound⟩

theorem indentUnit?_blank {source memberIndent unit : Text} {c : ClassDecl}
    (h : indentUnit? source c memberIndent = some unit) : isBlankText unit = true := by
  unfold indentUnit? at h
  simp only [Option.bind_eq_bind, Option.bind_eq_some_iff] at h
  obtain ⟨found, hfound, h⟩ := h
  cases h
  cases found with
  | none => rfl
  | some unit =>
    obtain ⟨s, _, hs⟩ := firstAnswer_eq_some hfound
    obtain ⟨indent, hindent, hbeyond⟩ := Option.map_eq_some_iff.1 hs
    have hblank := lineIndent?_blank hindent
    unfold beyond? at hbeyond
    simp only [Option.bind_eq_bind, Option.bind_eq_some_iff] at hbeyond
    obtain ⟨rest, hrest, hunit⟩ := hbeyond
    split at hunit
    · cases hunit
    · cases hunit
      rw [Text.dropLead?_eq_some_iff.1 hrest] at hblank
      exact (Text.isBlankText_append.1 hblank).2

/-! ## The place for the state -/

/-- A place for an assignment to the state, with what is written around it. -/
structure Slot where
  start : Nat
  stop : Nat
  pre : Text
  post : Text
  indent : Text
  unit : Text
  indent_blank : isBlankText indent = true
  unit_blank : isBlankText unit = true

/-- The edit that assigns `props` there. -/
def Slot.edit (k : Slot) (props : Props) : Edit :=
  ⟨k.start, k.stop, k.pre ++ stateAssignment props k.indent k.unit ++ k.post⟩

/-- The state of a class that is given `props`: an initializer that is there is merged in. -/
def mergedState (init : Option (Statement × Text)) (props : Props) : Props :=
  match init with
  | some (_, right) => props.mergedWithExisting (parseLiteral right)
  | none => props

/-- How a constructor body takes state: not at all, or in a slot. -/
theorem stateEditIn_cases {source memberIndent unit : Text} {b : Body}
    (hst : ∀ s ∈ b.statements, s.span.Fits source) (hmember : isBlankText memberIndent = true)
    (hunit : isBlankText unit = true) :
    (∃ s right, initializer? b = some (s, right) ∧ right.head? ≠ some '{' ∧
      ∀ props, stateEditIn source b props memberIndent unit =
        some (.error (.unmergeableState s.span.line))) ∨
    ((∀ s right, initializer? b = some (s, right) → right.head? = some '{') ∧
      ∃ k : Slot, ∀ props, stateEditIn source b props memberIndent unit =
        some (.ok (k.edit (mergedState (initializer? b) props)))) := by
  have hindent : ∀ s ∈ b.statements, ∃ indent, lineIndent? source s.span.start = some indent :=
    fun s hs => lineIndent?_isSome (hst s hs).2.1
  unfold stateEditIn
  cases hi : initializer? b with
  | some p =>
    obtain ⟨s, right⟩ := p
    obtain ⟨indent, hl⟩ := hindent s (initializer?_mem hi)
    by_cases hopen : right.head? = some '{'
    · right
      refine ⟨by rintro _ _ ⟨⟩; exact hopen, ?_⟩
      refine ⟨⟨s.span.start, s.span.stop, [], [], indent, unit, lineIndent?_blank hl, hunit⟩, ?_⟩
      intro props
      simp only [hopen, if_true, hl]
      unfold Slot.edit
      rw [List.nil_append, List.append_nil]
      rfl
    · left
      refine ⟨s, right, rfl, hopen, ?_⟩
      intro props
      simp only [hopen, if_false]
      rfl
  | none =>
    right
    refine ⟨by simp, ?_⟩
    cases hsup : b.statements.find? isSuperCall with
    | some s =>
      obtain ⟨indent, hl⟩ := hindent s (List.mem_of_find?_eq_some hsup)
      refine ⟨⟨s.span.stop, s.span.stop, '\n' :: indent, [], indent, unit, lineIndent?_blank hl,
        hunit⟩, ?_⟩
      intro props
      simp only [hl]
      unfold Slot.edit
      rw [List.append_nil]
      rfl
    | none =>
      cases hs : b.statements with
      | cons s rest =>
        obtain ⟨indent, hl⟩ := hindent s (by simp [hs])
        refine ⟨⟨s.span.start, s.span.start, [], '\n' :: indent, indent, unit,
          lineIndent?_blank hl, hunit⟩, ?_⟩
        intro props
        simp only [hl]
        unfold Slot.edit
        rw [List.nil_append]
        rfl
      | nil =>
        refine ⟨⟨b.span.start, b.span.stop, "\x7b\n".toList ++ (memberIndent ++ unit),
          '\n' :: memberIndent ++ ['}'], memberIndent ++ unit, unit,
          Text.isBlankText_append.2 ⟨hmember, hunit⟩, hunit⟩, ?_⟩
        intro props
        unfold Slot.edit
        simp only [List.append_assoc]
        rfl

theorem stateEdit_of_body {t : Snapshot} {c : ClassDecl} {memberIndent unit : Text} {b : Body}
    (hu : indentUnit? t.source c memberIndent = some unit) (hb : c.constructorBody? = some b)
    (props : Props) :
    stateEdit t c props memberIndent = stateEditIn t.source b props memberIndent unit := by
  unfold stateEdit
  rw [bind_ok (by rw [hu]; rfl), hb]

theorem stateEdit_of_no_body {t : Snapshot} {c : ClassDecl} {memberIndent unit : Text}
    (hu : indentUnit? t.source c memberIndent = some unit) (hb : c.constructorBody? = none)
    (props : Props) :
    stateEdit t c props memberIndent =
      if c.bodySpan.isEmpty then throw (.missingClassBody c.span.line)
      else pure (.insert (c.bodySpan.start + 1)
        (constructorBlock props t.language.isTyped memberIndent unit)) := by
  unfold stateEdit
  rw [bind_ok (by rw [hu]; rfl), hb]

/-- How a class takes state: not at all, or in a slot. -/
inductive TakesState (t : Snapshot) (c : ClassDecl) (memberIndent : Text) : Prop
  | unmergeable (s : Statement) (right : Text) : Initializes c s right → right.head? ≠ some '{' →
      (∀ props, stateEdit t c props memberIndent =
        some (.error (.unmergeableState s.span.line))) → TakesState t c memberIndent
  | bodiless : c.constructorBody? = none → c.bodySpan.isEmpty = true →
      (∀ props, stateEdit t c props memberIndent =
        some (.error (.missingClassBody c.span.line))) → TakesState t c memberIndent
  | slot (k : Slot) : (∀ s right, Initializes c s right → right.head? = some '{') →
      (c.constructorBody? = none → c.bodySpan.isEmpty = false) →
      (∀ props, stateEdit t c props memberIndent =
        some (.ok (k.edit (mergedState (c.constructorBody?.bind initializer?) props)))) →
      TakesState t c memberIndent

theorem takesState {t : Snapshot} {c : ClassDecl} {memberIndent : Text} (hfit : t.SpansFit)
    (hc : c ∈ t.classes) (hmember : isBlankText memberIndent = true) :
    TakesState t c memberIndent := by
  obtain ⟨unit, hu⟩ := indentUnit?_isSome hfit hc memberIndent
  have hunit := indentUnit?_blank hu
  cases hb : c.constructorBody? with
  | some b =>
    obtain ⟨k, hk, _, hkb⟩ := ClassDecl.constructorBody?_eq_some hb
    have hst : ∀ s ∈ b.statements, s.span.Fits t.source := by
      intro s hs
      exact hfit.statement hc hk (by simpa [Method.statements, hkb] using hs)
    rcases stateEditIn_cases hst hmember hunit with ⟨s, right, hi, hopen, hall⟩ | ⟨hopen, k, hall⟩
    · refine .unmergeable s right (initializes_iff.2 ⟨b, hb, hi⟩) hopen ?_
      intro props
      rw [stateEdit_of_body hu hb, hall]
    · refine .slot k ?_ (by simp [hb]) ?_
      · intro s right h
        obtain ⟨b', hb', hi⟩ := initializes_iff.1 h
        obtain rfl : b = b' := Option.some.inj (hb.symm.trans hb')
        exact hopen s right hi
      · intro props
        rw [stateEdit_of_body hu hb, hall, hb]
        rfl
  | none =>
    by_cases he : c.bodySpan.isEmpty = true
    · refine .bodiless hb he ?_
      intro props
      rw [stateEdit_of_no_body hu hb, if_pos he]
      rfl
    · refine .slot ⟨c.bodySpan.start + 1, c.bodySpan.start + 1,
        '\n' :: memberIndent ++ "constructor(".toList ++
          (if t.language.isTyped then "props: any".toList else "props".toList) ++
          ") \x7b\n".toList ++ (memberIndent ++ unit) ++ "super(props);\n".toList ++
          (memberIndent ++ unit),
        '\n' :: memberIndent ++ "\x7d\n".toList, memberIndent ++ unit, unit,
        Text.isBlankText_append.2 ⟨hmember, hunit⟩, hunit⟩ ?_ (fun _ => by simpa using he) ?_
      · intro s right h
        obtain ⟨b, hb', _⟩ := initializes_iff.1 h
        rw [hb] at hb'
        cases hb'
      · intro props
        rw [stateEdit_of_no_body hu hb, if_neg he, hb]
        unfold Slot.edit constructorBlock
        simp only [List.append_assoc]
        rfl

namespace TakesState

variable {t : Snapshot} {c : ClassDecl} {memberIndent : Text}

theorem unmergeable_iff (h : TakesState t c memberIndent) (props : Props) (line : Nat) :
    stateEdit t c props memberIndent = some (.error (.unmergeableState line)) ↔
      ∃ s right, Initializes c s right ∧ right.head? ≠ some '{' ∧ line = s.span.line := by
  constructor
  · intro hedit
    rcases h with ⟨s, right, hinit, hopen, hall⟩ | ⟨_, _, hall⟩ | ⟨k, _, _, hall⟩
    · rw [hall] at hedit
      cases hedit
      exact ⟨s, right, hinit, hopen, rfl⟩
    · rw [hall] at hedit
      cases hedit
    · rw [hall] at hedit
      cases hedit
  · rintro ⟨s, right, hinit, hopen, rfl⟩
    rcases h with ⟨s', right', hinit', _, hall⟩ | ⟨hnone, _, _⟩ | ⟨k, hopen', _, _⟩
    · rw [hall, (hinit.unique hinit').1]
    · exact absurd hnone hinit.constructorBody?_ne_none
    · exact absurd (hopen' s right hinit) hopen

theorem bodiless_iff (h : TakesState t c memberIndent) (props : Props) (line : Nat) :
    stateEdit t c props memberIndent = some (.error (.missingClassBody line)) ↔
      c.constructorBody? = none ∧ c.bodySpan.isEmpty = true ∧ line = c.span.line := by
  constructor
  · intro hedit
    rcases h with ⟨_, _, _, _, hall⟩ | ⟨hnone, hempty, hall⟩ | ⟨k, _, _, hall⟩
    · rw [hall] at hedit
      cases hedit
    · rw [hall] at hedit
      cases hedit
      exact ⟨hnone, hempty, rfl⟩
    · rw [hall] at hedit
      cases hedit
  · rintro ⟨hnone, hempty, rfl⟩
    rcases h with ⟨_, _, hinit, _, _⟩ | ⟨_, _, hall⟩ | ⟨k, _, hbody, _⟩
    · exact absurd hnone hinit.constructorBody?_ne_none
    · exact hall props
    · rw [hbody hnone] at hempty
      cases hempty

theorem exists_slot (h : TakesState t c memberIndent)
    (hopen : ∀ s right, Initializes c s right → right.head? = some '{')
    (hbody : c.constructorBody? = none → c.bodySpan.isEmpty = false) :
    ∃ k : Slot, ∀ props, stateEdit t c props memberIndent =
      some (.ok (k.edit (mergedState (c.constructorBody?.bind initializer?) props))) := by
  rcases h with ⟨s, right, hinit, hnot, _⟩ | ⟨hnone, hempty, _⟩ | ⟨k, _, _, hall⟩
  · exact absurd (hopen s right hinit) hnot
  · rw [hbody hnone] at hempty
    cases hempty
  · exact ⟨k, hall⟩

end TakesState

theorem constructorBody?_eq_none_iff {c : ClassDecl} :
    c.constructorBody? = none ↔ ∀ m ∈ c.members, m.isConstructor = true → m.body = none := by
  unfold ClassDecl.constructorBody? ClassDecl.constructor?
  constructor
  · intro h m hm hk
    by_contra hbody
    cases hfind : c.members.find? fun m => m.isConstructor && m.body.isSome with
    | none =>
      have := List.find?_eq_none.1 hfind m hm
      simp [hk, Option.isSome_iff_ne_none.2 hbody] at this
    | some k =>
      have hfound := List.find?_some hfind
      rw [hfind] at h
      have hnone : k.body = none := h
      simp [hnone] at hfound
  · intro h
    have hnone : (c.members.find? fun m => m.isConstructor && m.body.isSome) = none := by
      rw [List.find?_eq_none]
      intro m hm hfound
      rw [Bool.and_eq_true] at hfound
      simp [h m hm hfound.1] at hfound
    rw [hnone]
    rfl

/-! ## What is read back -/

/-- The literal that stands in a slot is read back as the state that was assigned. -/
theorem Slot.reads_back (k : Slot) {p : Props} (hkeys : p.keys.Nodup)
    (hes : ∀ e ∈ p.entries, e.WellFormed) :
    parseLiteral (p.formatNested k.indent k.unit) = p := by
  refine State.parseLiteral_formatNested k.indent_blank k.unit_blank ?_ hkeys
  intro e he
  exact ⟨(hes e he).legible, (hes e he).remarked, (hes e he).toEntry?_raw⟩

/-- Merging keeps each key once, and every entry as it was. -/
theorem merged_wellFormed {fresh existing : Props} (hkeys : fresh.keys.Nodup)
    (hfresh : ∀ e ∈ fresh.entries, e.WellFormed)
    (hexisting : ∀ e ∈ existing.entries, e.WellFormed) :
    (fresh.mergedWithExisting existing).keys.Nodup ∧
      ∀ e ∈ (fresh.mergedWithExisting existing).entries, e.WellFormed := by
  unfold Props.mergedWithExisting
  refine ⟨Props.nodup_keys_extend existing hkeys, ?_⟩
  intro e he
  rcases Props.mem_of_mem_foldl_insertEntry he with he | he
  · exact hfresh e he
  · exact hexisting e he

theorem Initializes.mergedState_eq {c : ClassDecl} {s : Statement} {right : Text}
    (h : Initializes c s right) (props : Props) :
    mergedState (c.constructorBody?.bind initializer?) props =
      props.mergedWithExisting (parseLiteral right) := by
  obtain ⟨b, hb, hi⟩ := initializes_iff.1 h
  rw [hb, Option.bind_some, hi]
  rfl

theorem mergedState_of_none {c : ClassDecl} (h : ∀ s right, ¬ Initializes c s right)
    (props : Props) : mergedState (c.constructorBody?.bind initializer?) props = props := by
  have hnone : c.constructorBody?.bind initializer? = none := by
    rw [Option.bind_eq_none_iff]
    intro b hb
    rw [Option.eq_none_iff_forall_ne_some]
    rintro ⟨s, right⟩ hi
    exact h s right (initializes_iff.2 ⟨b, hb, hi⟩)
  rw [hnone]
  rfl

/-- Giving a class its state fails exactly when the first assignment to the state in its
constructor opens no literal, or when it has neither a constructor with a body nor a body itself.
Otherwise there is one place and one text around it for all states, and the literal that is
written there reads back as the state: merged with the initializer, if there is one. -/
theorem a_class_is_given_the_state_that_was_asked_for (t : Snapshot) (c : ClassDecl)
    (memberIndent : Text) (hfit : t.SpansFit) (hc : c ∈ t.classes)
    (hmember : memberIndent.all isIndent = true) :
    (∀ props line, stateEdit t c props memberIndent = some (.error (.unmergeableState line)) ↔
      ∃ s right, Initializes c s right ∧ right.head? ≠ some '{' ∧ line = s.span.line) ∧
    (∀ props line, stateEdit t c props memberIndent = some (.error (.missingClassBody line)) ↔
      (∀ m ∈ c.members, m.isConstructor = true → m.body = none) ∧
        c.bodySpan.isEmpty = true ∧ line = c.span.line) ∧
    ((∀ s right, Initializes c s right → right.head? = some '{') →
      ((∀ m ∈ c.members, m.isConstructor = true → m.body = none) →
        c.bodySpan.isEmpty = false) →
      ∃ start stop pre post, ∀ props, ∃ literal,
        stateEdit t c props memberIndent = some (.ok ⟨start, stop,
          pre ++ ("this.state = ".toList ++ literal ++ [';']) ++ post⟩) ∧
        (props.keys.Nodup → (∀ e ∈ props.entries, e.WellFormed) →
          (∀ s right, Initializes c s right →
            (∀ e ∈ (parseLiteral right).entries, e.WellFormed) →
            parseLiteral literal = props.mergedWithExisting (parseLiteral right)) ∧
          ((∀ s right, ¬ Initializes c s right) → parseLiteral literal = props))) := by
  have htakes := takesState hfit hc (isBlankText_of_isIndent hmember)
  rw [← constructorBody?_eq_none_iff]
  refine ⟨htakes.unmergeable_iff, htakes.bodiless_iff, ?_⟩
  intro hopen hbody
  obtain ⟨k, hall⟩ := htakes.exists_slot hopen hbody
  refine ⟨k.start, k.stop, k.pre, k.post, ?_⟩
  intro props
  refine ⟨_, hall props, ?_⟩
  intro hkeys hes
  constructor
  · intro s right hinit hexisting
    obtain ⟨hkeys', hes'⟩ := merged_wellFormed hkeys hes hexisting
    rw [hinit.mergedState_eq]
    exact k.reads_back hkeys' hes'
  · intro hnone
    rw [mergedState_of_none hnone]
    exact k.reads_back hkeys hes

/-- The initializer of the class below. -/
def settledStatement : Statement :=
  ⟨"this.state = \x7b a: 1 \x7d;".toList, .onLine 2 10 28 50⟩

def settledSource : Text :=
  "class A \x7b\n  constructor() \x7b this.state = \x7b a: 1 \x7d; \x7d\n\x7d\n".toList

/-- A class whose constructor has an initializer. -/
def settledClass : ClassDecl :=
  ⟨some "A", [.onLine settledSource 2 10 12 52 "constructor" [settledStatement]], [],
    ⟨8, 54, 1, 9, 3⟩, ⟨0, 54, 1, 1, 3⟩⟩

def settledTree : Snapshot :=
  { Snapshot.blank "A.jsx" .javaScript settledSource with classes := [settledClass] }

theorem settledClass_initializes :
    Initializes settledClass settledStatement "\x7b a: 1 \x7d".toList :=
  initializes_iff.2 ⟨_, rfl, by decide +kernel⟩

theorem settledState_wellFormed :
    ∀ e ∈ (parseLiteral "\x7b a: 1 \x7d".toList).entries, e.WellFormed := by
  have hentries : (parseLiteral "\x7b a: 1 \x7d".toList).entries = [⟨['a'], ['1'], none⟩] := by
    decide +kernel
  rw [hentries, List.forall_mem_singleton]
  exact ⟨by decide, by decide, by decide, by decide, by decide, by decide, by simp⟩

/-- The state of the sample is merged with the initializer. -/
theorem sampleState_is_merged_with_an_initializer :
    settledTree.SpansFit ∧ settledClass ∈ settledTree.classes ∧
      ∃ start stop pre post literal,
        stateEdit settledTree settledClass State.sampleState [' ', ' '] = some (.ok ⟨start, stop,
          pre ++ ("this.state = ".toList ++ literal ++ [';']) ++ post⟩) ∧
        parseLiteral literal = State.sampleState.mergedWithExisting
          (parseLiteral "\x7b a: 1 \x7d".toList) := by
  have hfit : settledTree.SpansFit := by decide +kernel
  have hmem : settledClass ∈ settledTree.classes := List.mem_singleton_self settledClass
  obtain ⟨_, _, hwritten⟩ := a_class_is_given_the_state_that_was_asked_for settledTree
    settledClass [' ', ' '] hfit hmem (by decide)
  obtain ⟨start, stop, pre, post, hall⟩ := hwritten
    (fun s right h => by rw [← (settledClass_initializes.unique h).2]; decide)
    (fun _ => by decide)
  obtain ⟨literal, hedit, hread⟩ := hall State.sampleState
  obtain ⟨hmerged, _⟩ := hread (by decide +kernel) State.sampleState_wellFormed
  exact ⟨hfit, hmem, start, stop, pre, post, literal, hedit,
    hmerged _ _ settledClass_initializes settledState_wellFormed⟩

end Revise

end Uplift
