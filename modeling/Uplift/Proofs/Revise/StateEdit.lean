-- Where the state of a class goes. Giving a class its state has an answer
-- whenever the spans of the snapshot fit, and the edit stands either right
-- behind the brace that opens the class, or inside its constructor. Both places
-- are out of reach for the removal of another member.
import Uplift.Proofs.Edit.Conflicts
import Uplift.Proofs.Revise.Removal
import Uplift.Proofs.Snapshot.Spans
import Uplift.Revise.Constructor

namespace Uplift.Revise

open State (Props)
open Text (isBoundary slice?)

/-! ## Changes that can be refused -/

theorem bind_ok {α β : Type} {x : Revising α} {a : α} (h : x = some (.ok a))
    (f : α → Revising β) : (x >>= f) = f a := by
  subst h
  rfl

theorem bind_error {α β : Type} {x : Revising α} {e : ApplyError} (h : x = some (.error e))
    (f : α → Revising β) : (x >>= f) = some (.error e) := by
  subst h
  rfl

/-! ## What the source shows -/

theorem lineIndent?_isSome {source : Text} {n : Nat} (h : isBoundary source n = true) :
    ∃ indent, lineIndent? source n = some indent := by
  obtain ⟨⟨before, after⟩, hcut⟩ := Option.isSome_iff_exists.1 h
  unfold lineIndent?
  simp only [hcut, Option.bind_eq_bind, Option.bind_some]
  exact ⟨_, rfl⟩

theorem firstAnswer_isSome {α β : Type} {f : α → Option (Option β)} {l : List α}
    (h : ∀ a ∈ l, ∃ r, f a = some r) : ∃ r, firstAnswer f l = some r := by
  induction l with
  | nil => exact ⟨none, rfl⟩
  | cons a l ih =>
    obtain ⟨r, hr⟩ := h a (by simp)
    unfold firstAnswer
    rw [hr]
    cases r with
    | none => exact ih (fun b hb => h b (List.mem_cons_of_mem _ hb))
    | some b => exact ⟨some b, rfl⟩

theorem indentUnit?_isSome {t : Snapshot} {c : ClassDecl} (h : t.SpansFit) (hc : c ∈ t.classes)
    (memberIndent : Text) : ∃ unit, indentUnit? t.source c memberIndent = some unit := by
  have hfound : ∃ r, firstAnswer (fun s : Statement =>
      (lineIndent? t.source s.span.start).map (beyond? memberIndent))
        (c.members.flatMap (·.statements)) = some r := by
    apply firstAnswer_isSome
    intro s hs
    obtain ⟨m, hm, hs⟩ := List.mem_flatMap.1 hs
    obtain ⟨indent, hi⟩ := lineIndent?_isSome (h.statement hc hm hs).2.1
    exact ⟨_, by rw [hi]; rfl⟩
  obtain ⟨r, hr⟩ := hfound
  unfold indentUnit?
  simp only [hr, Option.bind_eq_bind, Option.bind_some]
  exact ⟨_, rfl⟩

/-! ## The place of the edit -/

/-- The edit starts and stops where the span starts or stops. -/
def OnEnds (s : Span) (e : Edit) : Prop :=
  (e.start = s.start ∨ e.start = s.stop) ∧ (e.stop = s.start ∨ e.stop = s.stop) ∧
    e.start ≤ e.stop

/-- Where the state of a class can go. -/
inductive StateSpot (c : ClassDecl) (e : Edit) : Prop
  | opening : c.constructorBody? = none → e.start = c.bodySpan.start + 1 →
      e.stop = c.bodySpan.start + 1 → StateSpot c e
  | body (b : Body) : c.constructorBody? = some b → OnEnds b.span e → StateSpot c e
  | statement (b : Body) (s : Statement) : c.constructorBody? = some b → s ∈ b.statements →
      OnEnds s.span e → StateSpot c e

/-- How giving a class its state can end. -/
inductive StateOutcome (c : ClassDecl) : Except ApplyError Edit → Prop
  | placed (e : Edit) : StateSpot c e → StateOutcome c (.ok e)
  | unmergeable (line : Nat) : isMergeable c = false →
      StateOutcome c (.error (.unmergeableState line))
  | bodiless (line : Nat) : c.bodySpan.isEmpty = true →
      StateOutcome c (.error (.missingClassBody line))

theorem initializer?_mem {b : Body} {s : Statement} {right : Text}
    (h : initializer? b = some (s, right)) : s ∈ b.statements := by
  unfold initializer? at h
  obtain ⟨s', hs', h⟩ := List.exists_of_findSome?_eq_some h
  obtain ⟨r, _, he⟩ := Option.map_eq_some_iff.1 h
  cases he
  exact hs'

theorem stateEditIn_outcome {source : Text} {c : ClassDecl} {b : Body}
    (hb : c.constructorBody? = some b) (hfit : b.span.Fits source)
    (hst : ∀ s ∈ b.statements, s.span.Fits source) (props : Props) (memberIndent unit : Text) :
    ∃ r, stateEditIn source b props memberIndent unit = some r ∧ StateOutcome c r := by
  -- Every place that is looked at is where a statement starts.
  have hindent : ∀ s ∈ b.statements, ∃ indent, lineIndent? source s.span.start = some indent :=
    fun s hs => lineIndent?_isSome (hst s hs).2.1
  unfold stateEditIn
  cases hi : initializer? b with
  | some p =>
    obtain ⟨s, right⟩ := p
    have hs := initializer?_mem hi
    obtain ⟨indent, hl⟩ := hindent s hs
    simp only [hl]
    split
    · exact ⟨_, rfl, .placed _ (.statement b s hb hs ⟨Or.inl rfl, Or.inr rfl, (hst s hs).1⟩)⟩
    · rename_i hne
      refine ⟨_, rfl, .unmergeable _ ?_⟩
      simpa [isMergeable, hb, hi] using hne
  | none =>
    cases hsup : b.statements.find? isSuperCall with
    | some s =>
      have hs := List.mem_of_find?_eq_some hsup
      obtain ⟨indent, hl⟩ := hindent s hs
      simp only [hl]
      exact ⟨_, rfl, .placed _ (.statement b s hb hs ⟨Or.inr rfl, Or.inr rfl, Nat.le_refl _⟩)⟩
    | none =>
      cases hl : b.statements with
      | cons s rest =>
        have hs : s ∈ b.statements := by simp [hl]
        obtain ⟨indent, hl⟩ := hindent s hs
        simp only [hl]
        exact ⟨_, rfl, .placed _ (.statement b s hb hs ⟨Or.inl rfl, Or.inl rfl, Nat.le_refl _⟩)⟩
      | nil => exact ⟨_, rfl, .placed _ (.body b hb ⟨Or.inl rfl, Or.inr rfl, hfit.1⟩)⟩

/-- Giving a class its state has an answer: an edit in one of the places for it, or a reason
that the class itself shows. -/
theorem stateEdit_outcome {t : Snapshot} {c : ClassDecl} (h : t.SpansFit) (hc : c ∈ t.classes)
    (props : Props) (memberIndent : Text) :
    ∃ r, stateEdit t c props memberIndent = some r ∧ StateOutcome c r := by
  obtain ⟨unit, hu⟩ := indentUnit?_isSome h hc memberIndent
  unfold stateEdit
  rw [bind_ok (by rw [hu]; rfl)]
  cases hb : c.constructorBody? with
  | some b =>
    obtain ⟨k, hk, _, hkb⟩ := ClassDecl.constructorBody?_eq_some hb
    refine stateEditIn_outcome hb (h.body hc hk hkb) ?_ props memberIndent unit
    intro s hs
    exact h.statement hc hk (by simpa [Method.statements, hkb] using hs)
  | none =>
    simp only
    split
    · rename_i he
      exact ⟨_, rfl, .bodiless _ he⟩
    · exact ⟨_, rfl, .placed _ (.opening hb rfl rfl)⟩

/-! ## Out of reach -/

namespace StateSpot

variable {t : Snapshot} {c : ClassDecl} {e : Edit}

/-- The span that holds an edit inside the constructor. -/
theorem within_constructor (hw : c.WellFormed t.source) (hfit : t.SpansFit)
    (hc : c ∈ t.classes) {b : Body} {s : Span} (hb : c.constructorBody? = some b)
    (hs : s = b.span ∨ ∃ x ∈ b.statements, s = x.span) (he : OnEnds s e) :
    e.fits t.source = true ∧ ∃ k ∈ c.members, k.isConstructor = true ∧
      k.span.start ≤ e.start ∧ e.stop ≤ k.span.stop := by
  obtain ⟨k, hk, hkc, hkb⟩ := ClassDecl.constructorBody?_eq_some hb
  have hbody := hw.constructors k hk hkc b (by simp [hkb])
  have hin := Span.contains_iff.1 hbody.within
  have hsf : s.Fits t.source ∧ b.span.start ≤ s.start ∧ s.stop ≤ b.span.stop := by
    rcases hs with rfl | ⟨x, hx, rfl⟩
    · exact ⟨hfit.body hc hk hkb, Nat.le_refl _, Nat.le_refl _⟩
    · have hx' := hbody.inside x hx
      refine ⟨hfit.statement hc hk (by simpa [Method.statements, hkb] using hx), ?_, ?_⟩
      · exact Nat.le_of_succ_le hx'.1
      · exact Nat.le_of_succ_le hx'.2
  obtain ⟨⟨hle, hb1, hb2⟩, h1, h2⟩ := hsf
  obtain ⟨hstart, hstop, hord⟩ := he
  refine ⟨Edit.fits_iff.2 ⟨hord, ?_, ?_⟩, k, hk, hkc, by omega, by omega⟩
  · rcases hstart with h | h <;> rw [h] <;> assumption
  · rcases hstop with h | h <;> rw [h] <;> assumption

/-- An edit of the state is right behind the opening brace, or inside the constructor. -/
theorem place (h : StateSpot c e) (hw : c.WellFormed t.source) (hfit : t.SpansFit)
    (hc : c ∈ t.classes) :
    e.fits t.source = true ∧
      (e.start = c.bodySpan.start + 1 ∧ e.stop = c.bodySpan.start + 1 ∨
        ∃ k ∈ c.members, k.isConstructor = true ∧
          k.span.start ≤ e.start ∧ e.stop ≤ k.span.stop) := by
  cases h with
  | opening _ h1 h2 =>
    have hb := Text.slice?_boundary_right hw.braced.2.1
    exact ⟨Edit.fits_iff.2 ⟨by omega, by rw [h1]; exact hb, by rw [h2]; exact hb⟩,
      Or.inl ⟨h1, h2⟩⟩
  | body b hb he =>
    obtain ⟨h1, h2⟩ := within_constructor hw hfit hc hb (Or.inl rfl) he
    exact ⟨h1, Or.inr h2⟩
  | statement b s hb hs he =>
    obtain ⟨h1, h2⟩ := within_constructor hw hfit hc hb (Or.inr ⟨s, hs, rfl⟩) he
    exact ⟨h1, Or.inr h2⟩

/-- An edit of the state stands between the braces of its class. -/
theorem enclosed (h : StateSpot c e) (hw : c.WellFormed t.source) (hfit : t.SpansFit)
    (hc : c ∈ t.classes) : c.bodySpan.start + 1 ≤ e.start ∧ e.stop + 1 ≤ c.bodySpan.stop := by
  rcases (h.place hw hfit hc).2 with ⟨h1, h2⟩ | ⟨k, hk, _, h1, h2⟩
  · have := hw.braced.1
    omega
  · have := hw.inside k hk
    unfold Span.Encloses at this
    omega

/-- The removal of a member does not reach the state of its class. -/
theorem apart_member (h : StateSpot c e) (hw : c.WellFormed t.source) (hfit : t.SpansFit)
    (hc : c ∈ t.classes) {m : Method} {f : Edit} (hm : m ∈ c.members)
    (hmc : m.isConstructor = false)
    (hf : Widens t.source m.span.start m.span.stop f.start f.stop) : Edit.Apart f e := by
  unfold Edit.Apart
  rcases (h.place hw hfit hc).2 with ⟨h1, h2⟩ | ⟨k, hk, hkc, h1, h2⟩
  · have := hf.char_le_left hw.braced.2.1 (by decide) (by omega) (hw.inside m hm).1
    omega
  · have hne : m ≠ k := by
      rintro rfl
      simp [hmc] at hkc
    obtain ⟨c1, p, hc1, hb1, hlt, hp⟩ := Text.isSolidAt_head (hw.solid k hk)
    obtain ⟨c2, q, hc2, hb2, hq, hlt'⟩ := Text.isSolidAt_last (hw.solid k hk)
    rcases hw.members_apart hm hk hne with hap | hap
    · have := hf.right_le_of_char hc1 hb1 hlt hap
      omega
    · have := hf.char_le_left hc2 hb2 hlt' hap
      omega

end StateSpot

end Uplift.Revise
