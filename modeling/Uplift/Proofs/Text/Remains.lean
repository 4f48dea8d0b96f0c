-- What remains of a text when the pieces under some ranges are taken out. Two
-- ways to take pieces out leave the same text when they treat every character
-- alike, and the same text up to blanks when they treat alike every character
-- that is not blank.
import Uplift.Proofs.Text.Places

namespace Uplift.Text

/-- The offset lies in one of the ranges. -/
def isCovered (ranges : List (Nat × Nat)) (n : Nat) : Bool :=
  ranges.any fun r => r.1 ≤ n && n < r.2

/-- The characters of `t` whose offsets are not covered; `pos` is the offset of the first. -/
def remains (covered : Nat → Bool) (pos : Nat) : Text → Text
  | [] => []
  | c :: t =>
    let rest := remains covered (pos + c.utf8Size) t
    if covered pos then rest else c :: rest

/-- The text without the pieces under the ranges. -/
def without (t : Text) (ranges : List (Nat × Nat)) : Text := remains (isCovered ranges) 0 t

/-- The characters that are not blank, in order. -/
def solids (t : Text) : Text := t.filter fun c => !isBlank c

theorem isCovered_cons (r : Nat × Nat) (ranges : List (Nat × Nat)) (n : Nat) :
    isCovered (r :: ranges) n = ((r.1 ≤ n && n < r.2) || isCovered ranges n) := by
  simp [isCovered]

theorem isCovered_append (ranges others : List (Nat × Nat)) (n : Nat) :
    isCovered (ranges ++ others) n = (isCovered ranges n || isCovered others n) := by
  simp [isCovered]

/-- An offset before all ranges is not covered. -/
theorem isCovered_eq_false_of_lt {ranges : List (Nat × Nat)} {n : Nat}
    (h : ∀ r ∈ ranges, n < r.1) : isCovered ranges n = false := by
  unfold isCovered
  rw [List.any_eq_false]
  intro r hr
  have := h r hr
  simp
  omega

/-! ## Parts of a text -/

section

variable {f g : Nat → Bool}

theorem remains_append (pos : Nat) (s t : Text) :
    remains f pos (s ++ t) =
      remains f pos s ++ remains f (pos + width s) t := by
  induction s generalizing pos with
  | nil => simp [remains]
  | cons c s ih =>
    simp only [List.cons_append, remains, ih, width_cons, Nat.add_assoc]
    split <;> simp

theorem remains_congr {pos : Nat} {t : Text}
    (h : ∀ n, pos ≤ n → n < pos + width t → f n = g n) :
    remains f pos t = remains g pos t := by
  induction t generalizing pos with
  | nil => rfl
  | cons c t ih =>
    have hsize := c.utf8Size_pos
    have hrest : ∀ n, pos + c.utf8Size ≤ n → n < pos + c.utf8Size + width t →
        f n = g n := by
      intro n h1 h2
      exact h n (by omega) (by simp only [width_cons]; omega)
    simp only [remains, ih hrest, h pos (Nat.le_refl _) (by simp only [width_cons]; omega)]

/-- A text of which nothing is covered remains whole. -/
theorem remains_eq_self {pos : Nat} {t : Text}
    (h : ∀ n, pos ≤ n → n < pos + width t → f n = false) : remains f pos t = t := by
  rw [remains_congr (g := fun _ => false) h]
  clear h
  induction t generalizing pos with
  | nil => rfl
  | cons c t ih => simp [remains, ih]

/-- Of a text that is all covered nothing remains. -/
theorem remains_eq_nil {pos : Nat} {t : Text}
    (h : ∀ n, pos ≤ n → n < pos + width t → f n = true) : remains f pos t = [] := by
  rw [remains_congr (g := fun _ => true) h]
  clear h
  induction t generalizing pos with
  | nil => rfl
  | cons c t ih => simp [remains, ih]

/-- Up to blanks, only the characters that are not blank decide what remains. -/
theorem solids_remains_congr {pos : Nat} {t : Text}
    (h : ∀ u c v, t = u ++ c :: v → isBlank c = false →
      f (pos + width u) = g (pos + width u)) :
    solids (remains f pos t) = solids (remains g pos t) := by
  induction t generalizing pos with
  | nil => rfl
  | cons c t ih =>
    have hrest : solids (remains f (pos + c.utf8Size) t) =
        solids (remains g (pos + c.utf8Size) t) := by
      apply ih
      rintro u d v rfl hd
      have := h (c :: u) d v rfl hd
      rwa [width_cons, ← Nat.add_assoc] at this
    unfold solids at *
    by_cases hc : isBlank c = true
    · simp only [remains]
      split <;> split <;> simp [hc, hrest]
    · have hhead := h [] c t rfl (by simpa using hc)
      rw [width_nil, Nat.add_zero] at hhead
      simp only [remains, hhead]
      by_cases ho : g pos = true
      · simpa [ho] using hrest
      · simp [ho, List.filter_cons, hrest]

end

/-- The first of several ranges takes out its piece; the others are left to what comes behind. -/
theorem remains_first_range {pos : Nat} {kept piece tail : Text} {later : List (Nat × Nat)}
    (h : ∀ r ∈ later, pos + width kept + width piece ≤ r.1) :
    remains (isCovered ((pos + width kept, pos + width kept + width piece) :: later)) pos
        (kept ++ piece ++ tail) =
      kept ++ remains (isCovered later) (pos + width kept + width piece) tail := by
  have hkept : remains (isCovered ((pos + width kept, pos + width kept + width piece) :: later))
      pos kept = kept := by
    apply remains_eq_self
    intro n _ hn
    apply isCovered_eq_false_of_lt
    intro r hr
    rcases List.mem_cons.1 hr with rfl | hr
    · exact hn
    · have := h r hr
      omega
  have hpiece : remains (isCovered ((pos + width kept, pos + width kept + width piece) :: later))
      (pos + width kept) piece = [] := by
    apply remains_eq_nil
    intro n h1 h2
    simp [isCovered_cons, h1, h2]
  have htail : remains (isCovered ((pos + width kept, pos + width kept + width piece) :: later))
      (pos + width kept + width piece) tail =
        remains (isCovered later) (pos + width kept + width piece) tail := by
    apply remains_congr
    intro n hn _
    have hout : ¬ n < pos + width kept + width piece := by omega
    simp [isCovered_cons, hout]
  rw [remains_append, remains_append, hkept, hpiece, width_append, ← Nat.add_assoc, htail,
    List.append_nil]

/-- Two lists of ranges that cover the same characters that are not blank leave the same text,
up to blanks. -/
theorem solids_without_congr {t : Text} {ranges others : List (Nat × Nat)}
    (h : ∀ c p q, slice? t p q = some [c] → isBlank c = false →
      isCovered ranges p = isCovered others p) :
    solids (t.without ranges) = solids (t.without others) := by
  unfold without
  apply solids_remains_congr
  rintro u c v rfl hc
  rw [Nat.zero_add]
  exact h c (width u) (width u + c.utf8Size)
    (slice?_eq_some_iff.2 ⟨u, v, by simp, rfl, by simp⟩) hc

end Uplift.Text
