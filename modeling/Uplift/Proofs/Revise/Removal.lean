-- What the removal of a span takes with it. It grows over blanks only: to the
-- left inside the line where the span starts, and to the right up to the end of
-- a line. So it never reaches a character that is not blank, and the removals
-- of two members never reach each other.
import Uplift.Proofs.Text.Places
import Uplift.Revise.Line

namespace Uplift.Revise

open Text (slice? width isBoundary isBlank isSolidAt)

/-! ## The shape of a removal -/

/-- Bytes `a` up to `b` are `start` up to `stop` with blanks around them: none of the blanks
before is a newline, and those behind end where a line ends. -/
structure Widens (source : Text) (start stop a b : Nat) : Prop where
  lead : ∃ t, slice? source a start = some t ∧ ∀ c ∈ t, isBlank c = true ∧ c ≠ '\n'
  trail : ∃ t, slice? source stop b = some t ∧ (∀ c ∈ t, isBlank c = true) ∧
    (t = [] ∨ t.getLast? = some '\n' ∨ b = width source)

namespace Widens

variable {source : Text} {start stop a b : Nat}

theorem left_le (h : Widens source start stop a b) : a ≤ start := by
  obtain ⟨t, ht, _⟩ := h.lead
  exact Text.slice?_le ht

theorem le_right (h : Widens source start stop a b) : stop ≤ b := by
  obtain ⟨t, ht, _⟩ := h.trail
  exact Text.slice?_le ht

theorem boundary_left (h : Widens source start stop a b) : isBoundary source a = true := by
  obtain ⟨t, ht, _⟩ := h.lead
  exact Text.slice?_boundary_left ht

theorem boundary_right (h : Widens source start stop a b) : isBoundary source b = true := by
  obtain ⟨t, ht, _⟩ := h.trail
  exact Text.slice?_boundary_right ht

/-- What is not blank and stands behind the span stands behind all that is removed. -/
theorem right_le_of_char {c : Char} {p q : Nat} (h : Widens source start stop a b)
    (hc : slice? source p q = some [c]) (hb : isBlank c = false) (hpq : p < q) (hp : stop ≤ p) :
    b ≤ p := by
  obtain ⟨t, ht, hall, _⟩ := h.trail
  have hct : c ∉ t := fun hmem => by simp [hall c hmem] at hb
  rcases Text.char_outside hc ht hct with h1 | h1
  · omega
  · exact h1

/-- What is not blank and stands before the span stands before all that is removed. -/
theorem char_le_left {c : Char} {p q : Nat} (h : Widens source start stop a b)
    (hc : slice? source p q = some [c]) (hb : isBlank c = false) (hpq : p < q)
    (hq : q ≤ start) : q ≤ a := by
  obtain ⟨t, ht, hall⟩ := h.lead
  have hct : c ∉ t := fun hmem => by simp [(hall c hmem).1] at hb
  rcases Text.char_outside hc ht hct with h1 | h1
  · exact h1
  · omega

/-- Of the characters that are not blank, a removal takes those of its span. -/
theorem covers_iff {c : Char} {p q : Nat} (h : Widens source start stop a b)
    (hc : slice? source p q = some [c]) (hb : isBlank c = false) :
    (a ≤ p ∧ p < b) ↔ (start ≤ p ∧ p < stop) := by
  have hleft := h.left_le
  have hright := h.le_right
  have hpq : p < q := by
    obtain ⟨_, _, _, _, he⟩ := Text.slice?_eq_some_iff.1 hc
    have := c.utf8Size_pos
    simp only [Text.width_cons, Text.width_nil] at he
    omega
  refine ⟨fun hp => ⟨?_, ?_⟩, by omega⟩
  · -- A character that starts before the span ends before it too.
    obtain ⟨lead, hlead, _⟩ := h.lead
    have hedge := Text.slice?_self (Text.slice?_boundary_right hlead)
    rcases Text.char_outside hc hedge (by simp) with hq | hq
    · have := h.char_le_left hc hb hpq hq
      omega
    · exact hq
  · rw [← Nat.not_le]
    intro hge
    have := h.right_le_of_char hc hb hpq hge
    omega

/-- The removals of two solid spans, one behind the other, do not reach each other. -/
theorem apart {start' stop' a' b' : Nat} (h : Widens source start stop a b)
    (h' : Widens source start' stop' a' b') (hs : isSolidAt source start stop = true)
    (hs' : isSolidAt source start' stop' = true) (hle : stop ≤ start') : b ≤ a' := by
  obtain ⟨c, p, hc, hcb, hlt, hpb⟩ := Text.isSolidAt_head hs'
  obtain ⟨d, q, hd, hdb, _, hqb⟩ := Text.isSolidAt_last hs
  have hb : b ≤ start' := h.right_le_of_char hc hcb hlt hle
  have ha : stop ≤ a' := h'.char_le_left hd hdb hqb hle
  obtain ⟨t, ht, _, hend⟩ := h.trail
  obtain ⟨t', ht', hall'⟩ := h'.lead
  rcases hend with rfl | hnl | hend
  · obtain ⟨_, _, _, _, he⟩ := Text.slice?_eq_some_iff.1 ht
    simp at he
    omega
  · -- The newline that ends the first removal cannot stand in the second one's lead.
    obtain ⟨init, rfl⟩ := List.getLast?_eq_some_iff.1 hnl
    obtain ⟨r, _, hrb, hr⟩ := Text.slice?_last ht
    have hmem : '\n' ∉ t' := fun hmem => (hall' _ hmem).2 rfl
    rcases Text.char_outside hr ht' hmem with h1 | h1
    · exact h1
    · omega
  · have := Text.slice?_le_width hc
    omega

end Widens

/-! ## The removal that is computed -/

theorem takeLine_split (t : Text) :
    t = (takeLine t).1 ++ (takeLine t).2 ∧
      ((takeLine t).1.getLast? = some '\n' ∨ (takeLine t).2 = []) := by
  unfold takeLine
  cases h : Text.firstLine? t with
  | none => simp
  | some r =>
    obtain ⟨line, rest⟩ := r
    obtain ⟨ht, hl⟩ := Text.firstLine?_eq_some h
    exact ⟨by simpa using ht, Or.inl (by simpa using hl)⟩

theorem blankLine?_eq_some {rest line : Text} (h : blankLine? rest = some line) :
    (∃ below, rest = line ++ below) ∧ (∀ c ∈ line, isBlank c = true) ∧
      line.getLast? = some '\n' := by
  unfold blankLine? at h
  simp only [Option.bind_eq_bind, Option.bind_eq_some_iff] at h
  obtain ⟨⟨l, below⟩, hl, h⟩ := h
  obtain ⟨hr, hnl⟩ := Text.firstLine?_eq_some hl
  simp only at h
  split at h
  · rename_i hb
    cases h
    exact ⟨⟨below, hr⟩, Text.isBlankText_iff.1 hb, hnl⟩
  · cases h

/-- The blank line that goes with a member, or nothing. -/
theorem extra_blank {above rest extra : Text}
    (h : extra = if followsBlankOrOpener above then (blankLine? rest).getD [] else []) :
    (∃ below, rest = extra ++ below) ∧ (∀ c ∈ extra, isBlank c = true) ∧
      (extra = [] ∨ extra.getLast? = some '\n') := by
  split at h
  · cases hl : blankLine? rest with
    | none => simp [h, hl]
    | some line =>
      obtain ⟨h1, h2, h3⟩ := blankLine?_eq_some hl
      rw [hl, Option.getD_some] at h
      subst h
      exact ⟨h1, h2, Or.inr h3⟩
  · simp [h]

/-- The part of its line that stands before an offset. -/
theorem slice?_lastLine {source before behind : Text} (h : source = before ++ behind) :
    slice? source (width before - width (Text.lastLine before)) (width before) =
      some (Text.lastLine before) := by
  obtain ⟨above, habove, _⟩ := Text.lastLine_split before
  have hw : width before = width above + width (Text.lastLine before) := by
    rw [← Text.width_append, ← habove]
  exact Text.slice?_eq_some_iff.2 ⟨above, behind, by rw [← habove]; exact h, by omega, by omega⟩

/-- The rest of the line behind an offset, and a piece of the lines below it. -/
theorem slice?_takeLine {source front after extra below : Text} (h : source = front ++ after)
    (hrest : (takeLine after).2 = extra ++ below) :
    slice? source (width front) (width front + width (takeLine after).1 + width extra) =
      some ((takeLine after).1 ++ extra) := by
  refine Text.slice?_eq_some_iff.2 ⟨front, below, ?_, rfl, by simp; omega⟩
  rw [h, List.append_assoc, List.append_assoc, ← hrest, ← (takeLine_split after).1]

/-- What goes behind a member ends with a line, or with the text. -/
theorem takeLine_append_end {source front after extra : Text} (h : source = front ++ after)
    (hx : extra = [] ∨ extra.getLast? = some '\n') :
    ((takeLine after).1 ++ extra).getLast? = some '\n' ∨
      width front + width (takeLine after).1 + width extra = width source := by
  rcases hx with rfl | hx
  · obtain ⟨hsplit, hline⟩ := takeLine_split after
    rcases hline with hline | hline
    · exact Or.inl (by simpa using hline)
    · right
      rw [hline, List.append_nil] at hsplit
      rw [h, Text.width_append, ← hsplit]
      simp
  · left
    rw [List.getLast?_append, hx]
    rfl

theorem removalRange?_widens {source : Text} {start stop a b : Nat}
    (h : removalRange? source start stop = some (a, b)) : Widens source start stop a b := by
  unfold removalRange? at h
  simp only [Option.bind_eq_bind, Option.bind_eq_some_iff] at h
  obtain ⟨⟨before, behind⟩, hstart, ⟨front, after⟩, hstop, h⟩ := h
  obtain ⟨hs1, rfl⟩ := Text.of_cut? hstart
  obtain ⟨hs2, rfl⟩ := Text.of_cut? hstop
  simp only at h hs1 hs2
  split at h
  · rename_i halone
    simp only [Bool.and_eq_true] at halone
    obtain ⟨hlead, htrail⟩ := halone
    generalize hx : (if followsBlankOrOpener _ then (blankLine? _).getD [] else []) = extra at h
    obtain ⟨⟨below, hrest⟩, hxb, hxe⟩ := extra_blank hx.symm
    simp only [Option.some.injEq, Prod.mk.injEq] at h
    obtain ⟨rfl, rfl⟩ := h
    refine ⟨⟨_, slice?_lastLine hs1, ?_⟩, ⟨_, slice?_takeLine hs2 hrest, ?_, ?_⟩⟩
    · intro c hc
      refine ⟨Text.isBlankText_iff.1 hlead c hc, ?_⟩
      rintro rfl
      exact Text.newline_not_mem_lastLine before hc
    · intro c hc
      rcases List.mem_append.1 hc with hc | hc
      · exact Text.isBlankText_iff.1 htrail c hc
      · exact hxb c hc
    · exact Or.inr (takeLine_append_end hs2 hxe)
  · simp only [Option.some.injEq, Prod.mk.injEq] at h
    obtain ⟨rfl, rfl⟩ := h
    have hb1 : isBoundary source (width before) = true :=
      Text.isBoundary_iff.2 ⟨_, _, hs1, rfl⟩
    have hb2 : isBoundary source (width front) = true := Text.isBoundary_iff.2 ⟨_, _, hs2, rfl⟩
    exact ⟨⟨[], Text.slice?_self hb1, by simp⟩, ⟨[], Text.slice?_self hb2, by simp, Or.inl rfl⟩⟩

theorem removalRange?_isSome {source : Text} {start stop : Nat}
    (hs : isBoundary source start = true) (he : isBoundary source stop = true) :
    ∃ a b, removalRange? source start stop = some (a, b) := by
  obtain ⟨⟨before, behind⟩, h1⟩ := Option.isSome_iff_exists.1 hs
  obtain ⟨⟨front, after⟩, h2⟩ := Option.isSome_iff_exists.1 he
  unfold removalRange?
  simp only [h1, h2, Option.bind_eq_bind, Option.bind_some]
  split <;> exact ⟨_, _, rfl⟩

theorem removalEdit?_eq_some {source : Text} {s : Span} {e : Edit} :
    removalEdit? source s = some e ↔
      removalRange? source s.start s.stop = some (e.start, e.stop) ∧ e.replacement = [] := by
  unfold removalEdit?
  simp only [Option.bind_eq_bind, Option.bind_eq_some_iff, Option.some.injEq]
  constructor
  · rintro ⟨⟨a, b⟩, hr, rfl⟩
    exact ⟨hr, rfl⟩
  · rintro ⟨hr, hnone⟩
    refine ⟨_, hr, ?_⟩
    rw [Edit.delete, ← hnone]

/-- Where a span fits the source there is an edit that removes it. -/
theorem exists_removalEdit? {source : Text} {s : Span}
    (hstart : isBoundary source s.start = true) (hstop : isBoundary source s.stop = true) :
    ∃ e, removalEdit? source s = some e ∧ e.replacement = [] ∧
      Widens source s.start s.stop e.start e.stop := by
  obtain ⟨a, b, hr⟩ := removalRange?_isSome hstart hstop
  exact ⟨.delete a b, removalEdit?_eq_some.2 ⟨hr, rfl⟩, rfl, removalRange?_widens hr⟩

end Uplift.Revise
