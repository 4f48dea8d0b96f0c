-- The lines of a text. A text that ends where a line ends can be followed by any
-- other, and the lines of the two stand one after the other. So blank lines meet
-- only inside one of the two, or where the first ends and the second starts.
import Mathlib.Data.List.Chain
import Uplift.Proofs.Text.Trim

namespace Uplift.Text

/-- The lines of a text, each with the newline that ends it; the last may have none. -/
def lines : Text → List Text
  | [] => []
  | c :: t =>
    if c = '\n' then [c] :: lines t
    else match lines t with
      | [] => [[c]]
      | line :: rest => (c :: line) :: rest

/-- Nothing but blanks, and a newline at the end. -/
def isBlankLine (line : Text) : Bool := isBlankText line && line.getLast? == some '\n'

/-- No two blank lines stand one below the other. -/
def SingleGaps (t : Text) : Prop :=
  (lines t).IsChain fun a b => ¬ (isBlankLine a = true ∧ isBlankLine b = true)

instance (t : Text) : Decidable (SingleGaps t) :=
  inferInstanceAs (Decidable ((lines t).IsChain _))

/-- The text is empty, or ends with the newline of its last line. -/
def EndsLine (t : Text) : Prop := t = [] ∨ t.getLast? = some '\n'

/-- The first line is blank. -/
def startsBlank (t : Text) : Bool := (lines t).head?.any isBlankLine

/-- The last line is blank. -/
def endsBlank (t : Text) : Bool := (lines t).getLast?.any isBlankLine

/-! ## Lines one after the other -/

theorem lines_eq_nil_iff {t : Text} : lines t = [] ↔ t = [] := by
  cases t with
  | nil => simp [lines]
  | cons c t =>
    unfold lines
    by_cases hc : c = '\n'
    · simp [hc]
    · simp only [hc, if_false]
      split <;> simp

theorem EndsLine.of_append {s t : Text} (h : EndsLine (s ++ t)) : EndsLine t := by
  rcases List.eq_nil_or_concat t with rfl | ⟨t, c, rfl⟩
  · exact Or.inl rfl
  · rcases h with h | h
    · simp at h
    · right
      rw [List.concat_eq_append, ← List.append_assoc, List.getLast?_concat] at h
      rw [List.concat_eq_append, List.getLast?_concat]
      exact h

theorem EndsLine.append {s t : Text} (hs : EndsLine s) (ht : EndsLine t) : EndsLine (s ++ t) := by
  rcases ht with rfl | ht
  · rwa [List.append_nil]
  · right
    rw [List.getLast?_append, ht]
    rfl

theorem EndsLine.of_cons {c : Char} {t : Text} (h : EndsLine (c :: t)) : EndsLine t :=
  EndsLine.of_append (s := [c]) h

theorem lines_append {s : Text} (h : EndsLine s) (t : Text) :
    lines (s ++ t) = lines s ++ lines t := by
  induction s with
  | nil => rfl
  | cons c s ih =>
    have ih := ih h.of_cons
    rw [List.cons_append, lines, lines, ih]
    by_cases hc : c = '\n'
    · simp [hc]
    · -- The line that `c` starts has its newline in `s`.
      have hs : s ≠ [] := by
        rintro rfl
        rcases h with h | h
        · cases h
        · simp [hc] at h
      obtain ⟨line, rest, hline⟩ := List.exists_cons_of_ne_nil (mt lines_eq_nil_iff.1 hs)
      simp [hc, hline]

theorem singleGaps_append {s : Text} (h : EndsLine s) (t : Text) :
    SingleGaps (s ++ t) ↔
      SingleGaps s ∧ SingleGaps t ∧ ¬ (endsBlank s = true ∧ startsBlank t = true) := by
  unfold SingleGaps
  rw [lines_append h, List.isChain_append]
  apply and_congr_right'
  apply and_congr_right'
  unfold endsBlank startsBlank
  simp only [Option.any_eq_true, Option.mem_def]
  constructor
  · rintro hall ⟨⟨a, ha, hab⟩, b, hb, hbb⟩
    exact hall a ha b hb ⟨hab, hbb⟩
  · intro hno a ha b hb hab
    exact hno ⟨⟨a, ha, hab.1⟩, b, hb, hab.2⟩

/-- What comes first decides how two texts start. -/
theorem startsBlank_append {s : Text} (h : EndsLine s) (hs : s ≠ []) (t : Text) :
    startsBlank (s ++ t) = startsBlank s := by
  unfold startsBlank
  obtain ⟨line, rest, hline⟩ := List.exists_cons_of_ne_nil (mt lines_eq_nil_iff.1 hs)
  rw [lines_append h, hline]
  rfl

/-- What comes last decides how two texts end. -/
theorem endsBlank_append {s : Text} (h : EndsLine s) {t : Text} (ht : t ≠ []) :
    endsBlank (s ++ t) = endsBlank t := by
  unfold endsBlank
  have hne := mt lines_eq_nil_iff.1 ht
  rw [lines_append h, List.getLast?_append_of_ne_nil _ hne]

/-! ## The first and the last line -/

theorem lines_of_firstLine? {t line rest : Text} (h : firstLine? t = some (line, rest)) :
    lines t = line :: lines rest := by
  induction t generalizing line with
  | nil => cases h
  | cons c t ih =>
    unfold firstLine? at h
    rw [lines]
    by_cases hc : c = '\n'
    · rw [if_pos hc] at h ⊢
      cases h
      rfl
    · rw [if_neg hc] at h ⊢
      obtain ⟨⟨a, b⟩, hab, he⟩ := Option.map_eq_some_iff.1 h
      cases he
      rw [ih hab]

theorem newline_not_mem_of_firstLine? {t : Text} (h : firstLine? t = none) : '\n' ∉ t := by
  induction t with
  | nil => simp
  | cons c t ih =>
    unfold firstLine? at h
    by_cases hc : c = '\n'
    · rw [if_pos hc] at h
      cases h
    · rw [if_neg hc, Option.map_eq_none_iff] at h
      simp only [List.mem_cons, not_or]
      exact ⟨fun he => hc he.symm, ih h⟩

/-- A text without a newline is one line, and not a blank one. -/
theorem startsBlank_of_no_newline {t : Text} (h : '\n' ∉ t) : startsBlank t = false := by
  have hlines : lines t = [] ∨ lines t = [t] := by
    induction t with
    | nil => exact Or.inl rfl
    | cons c t ih =>
      simp only [List.mem_cons, not_or] at h
      rw [lines, if_neg (Ne.symm h.1)]
      rcases ih h.2 with ht | ht
      · rw [lines_eq_nil_iff.1 ht]
        exact Or.inr rfl
      · rw [ht]
        exact Or.inr rfl
  unfold startsBlank
  rcases hlines with ht | ht
  · rw [ht]
    rfl
  · rw [ht, List.head?_cons, Option.any_some, isBlankLine, Bool.and_eq_false_iff]
    right
    rw [beq_eq_false_iff_ne]
    exact fun hlast => h (List.mem_of_getLast? hlast)

/-- Up to its first newline, a text is its first line. -/
theorem head?_lines {front : Text} (hfront : '\n' ∉ front) {c : Char} (hc : c ≠ '\n') (t : Text) :
    ∃ more, (lines (front ++ c :: t)).head? = some (front ++ c :: more) := by
  induction front with
  | nil =>
    rw [List.nil_append, lines, if_neg hc]
    cases lines t with
    | nil => exact ⟨[], rfl⟩
    | cons line rest => exact ⟨line, rfl⟩
  | cons d front ih =>
    simp only [List.mem_cons, not_or] at hfront
    obtain ⟨more, hmore⟩ := ih hfront.2
    refine ⟨more, ?_⟩
    rw [List.cons_append, lines, if_neg (Ne.symm hfront.1)]
    cases hl : lines (front ++ c :: t) with
    | nil => simp [hl] at hmore
    | cons line rest =>
      rw [hl] at hmore
      cases hmore
      rfl

/-- A line that holds a character that is not blank is not a blank line. -/
theorem startsBlank_of_solid {front : Text} (hfront : '\n' ∉ front) {c : Char}
    (hc : isBlank c = false) (t : Text) : startsBlank (front ++ c :: t) = false := by
  have hne : c ≠ '\n' := by
    rintro rfl
    cases hc
  obtain ⟨more, hmore⟩ := head?_lines hfront hne t
  unfold startsBlank
  rw [hmore, Option.any_some, isBlankLine, Bool.and_eq_false_iff]
  left
  rw [Bool.eq_false_iff]
  intro hall
  have := isBlankText_iff.1 hall c (by simp)
  rw [hc] at this
  cases this

/-- The last line of a text that ends with a newline. -/
theorem endsBlank_newline (t : Text) :
    endsBlank (t ++ ['\n']) = isBlankText (lastLine t) := by
  obtain ⟨above, habove, hends⟩ := lastLine_split t
  have hline := newline_not_mem_lastLine t
  generalize lastLine t = line at habove hline
  have hnone : ∀ u : Text, '\n' ∉ u → lines (u ++ ['\n']) = [u ++ ['\n']] := by
    intro u hu
    induction u with
    | nil => rfl
    | cons c u ih =>
      simp only [List.mem_cons, not_or] at hu
      rw [List.cons_append, lines, if_neg (Ne.symm hu.1), ih hu.2]
  have hblank : isBlank '\n' = true := by decide
  rw [habove, List.append_assoc]
  unfold endsBlank
  rw [lines_append hends, hnone line hline, List.getLast?_append_of_ne_nil _ (by simp)]
  simp only [List.getLast?_singleton, Option.any_some, isBlankLine, List.getLast?_concat,
    beq_self_eq_true, Bool.and_true]
  rw [Bool.eq_iff_iff, isBlankText_append]
  simp [isBlankText, hblank]

end Uplift.Text
