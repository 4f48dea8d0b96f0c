-- Behind a broken comment. Up to its newline the comment is read as a remark
-- and set down with its entry. Whatever is read after that, the entry stays
-- where it is, and only more comments are joined to its own.
import Uplift.Proofs.State.Layout

namespace Uplift.State

open Text (isBlank isBlankText)

/-! ## A mark -/

namespace Splitter

/-- What can be joined to a comment that is set down. -/
def IsFurther (m : Text) : Prop := m = [] ∨ ∃ rest, m = ' ' :: '/' :: rest

theorem IsFurther.join {m t : Text} (h : IsFurther m) (ht : t.head? = some '/') :
    IsFurther (m ++ ' ' :: t) := by
  obtain ⟨rest, rfl⟩ := List.head?_eq_some_iff.1 ht
  rcases h with rfl | ⟨more, rfl⟩
  · exact Or.inr ⟨rest, rfl⟩
  · exact Or.inr ⟨more ++ ' ' :: '/' :: rest, rfl⟩

/-- Behind the entries `front` stands one with the comment `seen`, or with more comments joined
to it, or such an entry is being read. -/
def Marks (front : List RawEntry) (seen : Text) (s : Splitter) : Prop :=
  (∃ t m more, s.done = front ++ ⟨t, some (seen ++ m)⟩ :: more ∧ IsFurther m) ∨
    (s.done = front ∧ isBlankText s.current = false ∧
      ∃ m, s.comment = some (seen ++ m) ∧ IsFurther m)

section Marks

variable {front : List RawEntry} {seen : Text} {s s' : Splitter}

theorem Marks.push (h : Marks front seen s) (t : Text) (hdone : s'.done = s.done)
    (hcomment : s'.comment = s.comment) (hcurrent : s'.current = s.current ++ t) :
    Marks front seen s' := by
  rcases h with ⟨u, m, more, hd, hm⟩ | ⟨hd, hb, m, hc, hm⟩
  · exact Or.inl ⟨u, m, more, hdone.trans hd, hm⟩
  · refine Or.inr ⟨hdone.trans hd, ?_, m, hcomment.trans hc, hm⟩
    rw [hcurrent, Bool.eq_false_iff, ne_eq, Text.isBlankText_append, hb]
    simp

theorem Marks.finishEntry (h : Marks front seen s) :
    ∃ t m more, s.finishEntry.done = front ++ ⟨t, some (seen ++ m)⟩ :: more ∧ IsFurther m := by
  rcases h with ⟨u, m, more, hd, hm⟩ | ⟨hd, hb, m, hc, hm⟩
  · simp only [Splitter.finishEntry, hd]
    split_ifs
    · exact ⟨u, m, more, rfl, hm⟩
    · exact ⟨u, m, more ++ [⟨Text.trim s.current, s.comment⟩], by simp, hm⟩
  · have hne : (Text.trim s.current).isEmpty = false := by
      rw [Bool.eq_false_iff, ne_eq, List.isEmpty_iff, Text.trim_eq_nil_iff, hb]
      exact Bool.false_ne_true
    exact ⟨Text.trim s.current, m, [], by simp [Splitter.finishEntry, hd, hc, hne], hm⟩

theorem Marks.endComment (h : Marks front seen s) {read : Text} (hread : read.head? = some '/') :
    Marks front seen (s.endComment read) := by
  have htrim : (Text.trimEnd read).head? = some '/' := Text.head?_trimEnd hread rfl
  by_cases hd : s.depth = 0
  · cases hb : isBlankText s.current with
    | false =>
      rw [endComment_own read hd hb]
      rcases h with ⟨u, m, more, hdone, hm⟩ | ⟨hdone, _, m, hc, hm⟩
      · exact Or.inl ⟨u, m, more, hdone, hm⟩
      · refine Or.inr ⟨hdone, hb, m ++ ' ' :: Text.trimEnd read, ?_, hm.join htrim⟩
        simp [hc, joinComment]
    | true =>
      rcases h with ⟨u, m, more, hdone, hm⟩ | ⟨_, hnot, _⟩
      · cases hl : s.lineBroken with
        | true =>
          rw [endComment_lost read hd hb hl]
          exact Or.inl ⟨u, m, more, hdone, hm⟩
        | false =>
          rw [endComment_last read hd hb hl, hdone]
          rcases List.eq_nil_or_concat more with rfl | ⟨more, x, rfl⟩
          · refine Or.inl ⟨u, m ++ ' ' :: Text.trimEnd read, [], ?_, hm.join htrim⟩
            rw [noteLast_concat]
            simp [joinComment]
          · rw [List.concat_eq_append, ← List.cons_append, ← List.append_assoc, noteLast_concat]
            exact Or.inl ⟨u, m, _, by rw [List.append_assoc, List.cons_append], hm⟩
      · rw [hb] at hnot
        cases hnot
  · rw [endComment_inside read hd]
    exact h.push (Text.trimEnd read) rfl rfl rfl

theorem Marks.readCode (h : Marks front seen s) (c : Char) : Marks front seen (s.readCode c) := by
  unfold Splitter.readCode
  split_ifs
  · exact h.push [] rfl rfl (by simp)
  · exact h.push [c] rfl rfl rfl
  · exact h.push [c] rfl rfl rfl
  · exact h.push [c] rfl rfl rfl
  · exact Or.inl h.finishEntry
  · exact h.push [c] rfl rfl rfl
  · exact h.push [c] rfl rfl rfl

/-- What is read of a comment starts with a slash. -/
def OpensComment : Mode → Prop
  | .lineComment read | .blockComment read _ => read.head? = some '/'
  | _ => True

theorem readCode_opensComment (hs : s.mode = .code) (c : Char) :
    OpensComment (s.readCode c).mode := by
  unfold Splitter.readCode
  split_ifs <;> simp [Splitter.finishEntry, hs, OpensComment]

theorem Marks.step (h : Marks front seen s) (hs : OpensComment s.mode) (c : Char) :
    Marks front seen (s.step c) ∧ OpensComment (s.step c).mode := by
  cases hm : s.mode with
  | code =>
    simp only [Splitter.step, hm]
    exact ⟨h.readCode c, readCode_opensComment hm c⟩
  | slash =>
    simp only [Splitter.step, hm]
    split_ifs
    · exact ⟨h.push [] rfl rfl (by simp), rfl⟩
    · exact ⟨h.push [] rfl rfl (by simp), rfl⟩
    · have hpush : Marks front seen { s.push ['/'] with mode := .code } := h.push ['/'] rfl rfl rfl
      exact ⟨hpush.readCode c, readCode_opensComment rfl c⟩
  | quoted q =>
    simp only [Splitter.step, hm]
    split_ifs
    · exact ⟨h.push [c] rfl rfl rfl, trivial⟩
    · exact ⟨h.push [c] rfl rfl rfl, trivial⟩
    · exact ⟨h.push [c] rfl rfl rfl, by simp [hm, OpensComment]⟩
  | escaped q =>
    simp only [Splitter.step, hm]
    exact ⟨h.push [c] rfl rfl rfl, trivial⟩
  | lineComment read =>
    have hread : read.head? = some '/' := by simpa [OpensComment, hm] using hs
    simp only [Splitter.step, hm]
    split_ifs
    · exact ⟨(h.endComment hread).readCode c, readCode_opensComment (s.endComment_spot read).1 c⟩
    · exact ⟨h.push [] rfl rfl (by simp), by simp [OpensComment, List.head?_append, hread]⟩
  | blockComment read star =>
    have hread : (read ++ [c]).head? = some '/' := by
      have hopen : read.head? = some '/' := by simpa [OpensComment, hm] using hs
      rw [List.head?_append, hopen, Option.some_or]
    simp only [Splitter.step, hm]
    split_ifs
    · exact ⟨h.endComment hread, by simp [(s.endComment_spot _).1, OpensComment]⟩
    · exact ⟨h.push [] rfl rfl (by simp), hread⟩

theorem Marks.foldl (h : Marks front seen s) (hs : OpensComment s.mode) (t : Text) :
    Marks front seen (t.foldl Splitter.step s) ∧ OpensComment (t.foldl Splitter.step s).mode := by
  induction t generalizing s with
  | nil => exact ⟨h, hs⟩
  | cons c t ih =>
    obtain ⟨hc, hmode⟩ := h.step hs c
    exact ih hc hmode

theorem Marks.settle (h : Marks front seen s) (hs : OpensComment s.mode) :
    Marks front seen s.settle := by
  cases hm : s.mode with
  | slash =>
    simp only [Splitter.settle, hm]
    exact h.push ['/'] rfl rfl rfl
  | lineComment read =>
    simp only [Splitter.settle, hm]
    exact h.endComment (by simpa [OpensComment, hm] using hs)
  | blockComment read star =>
    simp only [Splitter.settle, hm]
    exact h.endComment (by simpa [OpensComment, hm] using hs)
  | code => simpa only [Splitter.settle, hm] using h
  | quoted q => simpa only [Splitter.settle, hm] using h
  | escaped q => simpa only [Splitter.settle, hm] using h

/-- What was marked is set down, whatever follows. -/
theorem Marks.finish (h : Marks front seen s) (hs : OpensComment s.mode) (t : Text) :
    ∃ u m more, (t.foldl Splitter.step s).settle.finishEntry.done =
      front ++ ⟨u, some (seen ++ m)⟩ :: more ∧ IsFurther m := by
  obtain ⟨hmarks, hmode⟩ := h.foldl hs t
  exact (hmarks.settle hmode).finishEntry

/-- Up to its newline, a broken comment is set down as a remark. -/
theorem Ready.broken (h : Ready s front) {lead a rest : Text} {e : Entry} (es : List Entry)
    (hlead : isBlankText lead = true) (he : e.Legible)
    (hc : e.comment = some (a ++ '\n' :: rest)) (ha : Remark a) :
    ∃ pre post, renderLines lead (e :: es) = pre ++ post ∧
      Marks front (Text.trimEnd a) (pre.foldl Splitter.step s) ∧
      OpensComment (pre.foldl Splitter.step s).mode := by
  have hstart := h.blanks hlead
  have htext := hstart.read he.closes
  have htail : e.tail = ' ' :: (a ++ ['\n'] ++ rest) := by simp [Entry.tail, hc]
  cases es with
  | nil =>
    have hsolid : isBlankText ((lead.foldl Splitter.step s).current ++ e.render) = false := by
      rw [Bool.eq_false_iff, ne_eq, Text.isBlankText_append,
        Text.not_isBlankText_of_isSolid he.solid]
      simp
    obtain ⟨pad, hpad, hread⟩ := htext.foldl_remark hsolid ha
    refine ⟨lead ++ (e.render ++ ' ' :: (a ++ ['\n'])), rest ++ ['\n'], ?_, ?_⟩
    · rw [renderLines_singleton, htail]
      simp
    · rw [List.foldl_append, List.foldl_append, hread]
      refine ⟨Or.inr ⟨rfl, ?_, [], by simp, Or.inl rfl⟩, trivial⟩
      rw [Bool.eq_false_iff, ne_eq, Text.isBlankText_append, hsolid]
      simp
  | cons x es =>
    rw [← List.append_nil (_ ++ e.render)] at htext
    have hcomma := htext.comma hstart.blank rfl he.solid
    obtain ⟨pad, hpad, hread⟩ := foldl_remark_behind_comma ha e.render front
    refine ⟨lead ++ (e.render ++ ',' :: ' ' :: (a ++ ['\n'])),
      rest ++ '\n' :: renderLines lead (x :: es), ?_, ?_⟩
    · have happend := renderLines_append lead [e] (List.cons_ne_nil x es)
      rw [List.singleton_append, List.flatMap_singleton, Entry.line, htail] at happend
      rw [happend]
      simp
    · rw [List.foldl_append, List.foldl_append, List.foldl_cons, hcomma, hread]
      exact ⟨Or.inl ⟨e.render, [], [], by simp, Or.inl rfl⟩, trivial⟩

end Marks

end Splitter

/-! ## The lines of a state -/

/-- Nothing that is joined to the part before the newline makes up for the rest. -/
theorem broken_ne_joined {a rest m : Text} (hm : Splitter.IsFurther m) :
    a ++ '\n' :: rest ≠ Text.trimEnd a ++ m := by
  intro h
  obtain ⟨pad, ha, hpad, _⟩ := Text.exists_trimEnd a
  conv_lhs at h => rw [ha, List.append_assoc]
  have htail := List.append_cancel_left h
  rcases hm with rfl | ⟨more, rfl⟩
  · simp at htail
  · -- A blank is followed by a blank or the newline here, and there by a slash.
    rcases pad with _ | ⟨b, _ | ⟨c, pad⟩⟩
    · simp at htail
    · simp at htail
    · simp only [List.cons_append, List.cons.injEq] at htail
      obtain ⟨_, rfl, _⟩ := htail
      exact absurd (Text.isBlankText_iff.1 hpad '/' (by simp)) (by decide)

/-- How one line for each entry is read when a comment among them is broken. -/
theorem splitEntries_broken {lead a rest : Text} (indent : Text) {es : List Entry} {e : Entry}
    (es' : List Entry) (hlead : isBlankText lead = true) (hes : ∀ x ∈ es, x.Legible ∧ x.Remarked)
    (he : e.Legible) (hc : e.comment = some (a ++ '\n' :: rest)) (ha : Remark a) :
    ∃ u m more, splitEntries ('\n' :: (renderLines lead (es ++ e :: es') ++ indent)) =
      es.map Entry.raw ++ ⟨u, some (Text.trimEnd a ++ m)⟩ :: more ∧ Splitter.IsFurther m := by
  have hstart : Splitter.Ready {} [] := ⟨rfl, rfl, rfl, rfl⟩
  have hready := (hstart.blanks (by rfl : isBlankText ['\n'] = true)).lines hlead hes
  obtain ⟨pre, post, hsplit, hmarks, hmode⟩ := hready.broken es' hlead he hc ha
  obtain ⟨u, m, more, hdone, hm⟩ := hmarks.finish hmode (post ++ indent)
  refine ⟨u, m, more, ?_, hm⟩
  unfold splitEntries scanEntries
  rw [renderLines_append _ _ (List.cons_ne_nil e es'), hsplit]
  simpa [List.foldl_append] using hdone

end Uplift.State
