-- Places in a text. An offset is a place when the text can be cut there, and
-- two offsets hold a piece between them. A character stands wholly before or
-- wholly behind every piece that does not hold it, which is how ranges that
-- grow over blanks are kept away from everything else.
import Uplift.Text.Blank

namespace Uplift.Text

/-! ## Boundaries and pieces -/

theorem isBoundary_iff {t : Text} {n : Nat} :
    isBoundary t n = true ↔ ∃ u v, t = u ++ v ∧ width u = n := by
  unfold isBoundary
  rw [Option.isSome_iff_exists]
  constructor
  · rintro ⟨⟨u, v⟩, h⟩
    exact ⟨u, v, of_cut? h⟩
  · rintro ⟨u, v, rfl, rfl⟩
    exact ⟨(u, v), cut?_append u v⟩

theorem isBoundary_width (u v : Text) : isBoundary (u ++ v) (width u) = true :=
  isBoundary_iff.2 ⟨u, v, rfl, rfl⟩

/-- Of two cuts of a text, the part before the first is where the part before the second
starts. -/
theorem append_of_width_le {u v x y : Text} (h : u ++ v = x ++ y) (hle : width u ≤ width x) :
    ∃ w, x = u ++ w ∧ v = w ++ y := by
  rcases List.append_eq_append_iff.1 h with ⟨w, hx, hv⟩ | ⟨w, hu, hy⟩
  · exact ⟨w, hx, hv⟩
  · cases w with
    | nil => exact ⟨[], by simpa using hu.symm, by simpa using hy.symm⟩
    | cons c w =>
      have hsize := c.utf8Size_pos
      rw [hu, width_append, width_cons] at hle
      omega

/-- A piece between two offsets is a way to write the text as three parts. -/
theorem slice?_eq_some_iff {t mid : Text} {a b : Nat} :
    slice? t a b = some mid ↔
      ∃ u v, t = u ++ mid ++ v ∧ width u = a ∧ a + width mid = b := by
  unfold slice?
  constructor
  · intro h
    split at h
    · rename_i hab
      simp only [Option.bind_eq_bind, Option.bind_eq_some_iff, Option.some.injEq] at h
      obtain ⟨⟨u, rest⟩, hu, ⟨m, v⟩, hm, rfl⟩ := h
      obtain ⟨rfl, hwu⟩ := of_cut? hu
      obtain ⟨hr, hwm⟩ := of_cut? hm
      simp only at hr hwm ⊢
      exact ⟨u, v, by rw [hr, List.append_assoc], hwu, by omega⟩
    · cases h
  · rintro ⟨u, v, rfl, rfl, rfl⟩
    have hle : width u ≤ width u + width mid := by omega
    rw [if_pos hle, List.append_assoc, cut?_append, Nat.add_sub_cancel_left]
    simp [cut?_append]

theorem slice?_le {t mid : Text} {a b : Nat} (h : slice? t a b = some mid) : a ≤ b := by
  obtain ⟨u, v, _, _, hb⟩ := slice?_eq_some_iff.1 h
  omega

theorem slice?_self {t : Text} {n : Nat} (h : isBoundary t n = true) :
    slice? t n n = some [] := by
  obtain ⟨u, v, rfl, rfl⟩ := isBoundary_iff.1 h
  exact slice?_eq_some_iff.2 ⟨u, v, by simp, rfl, by simp⟩

theorem slice?_boundary_left {t mid : Text} {a b : Nat} (h : slice? t a b = some mid) :
    isBoundary t a = true := by
  obtain ⟨u, v, rfl, rfl, _⟩ := slice?_eq_some_iff.1 h
  rw [List.append_assoc]
  exact isBoundary_width u _

theorem slice?_boundary_right {t mid : Text} {a b : Nat} (h : slice? t a b = some mid) :
    isBoundary t b = true := by
  obtain ⟨u, v, rfl, rfl, rfl⟩ := slice?_eq_some_iff.1 h
  rw [← width_append]
  exact isBoundary_width (u ++ mid) v

theorem slice?_le_width {t mid : Text} {a b : Nat} (h : slice? t a b = some mid) :
    b ≤ width t := by
  obtain ⟨u, v, rfl, rfl, rfl⟩ := slice?_eq_some_iff.1 h
  simp only [width_append]
  omega

/-- A piece of one character lies at the front of a piece that starts with it. -/
theorem slice?_head {t mid : Text} {c : Char} {a b : Nat} (h : slice? t a b = some (c :: mid)) :
    ∃ p, a < p ∧ p ≤ b ∧ slice? t a p = some [c] := by
  obtain ⟨u, v, rfl, rfl, rfl⟩ := slice?_eq_some_iff.1 h
  have hc := c.utf8Size_pos
  refine ⟨width u + c.utf8Size, by omega, by simp only [width_cons]; omega, ?_⟩
  exact slice?_eq_some_iff.2 ⟨u, mid ++ v, by simp, rfl, by simp⟩

theorem slice?_last {t mid : Text} {c : Char} {a b : Nat}
    (h : slice? t a b = some (mid ++ [c])) :
    ∃ p, a ≤ p ∧ p < b ∧ slice? t p b = some [c] := by
  obtain ⟨u, v, rfl, rfl, rfl⟩ := slice?_eq_some_iff.1 h
  have hc := c.utf8Size_pos
  refine ⟨width u + width mid, by omega, by simp; omega, ?_⟩
  exact slice?_eq_some_iff.2 ⟨u ++ mid, v, by simp, by simp, by simp; omega⟩

/-- A character stands wholly before or wholly behind a piece that does not hold it. -/
theorem char_outside {t mid : Text} {c : Char} {p q i j : Nat}
    (hc : slice? t p q = some [c]) (hm : slice? t i j = some mid) (h : c ∉ mid) :
    q ≤ i ∨ j ≤ p := by
  obtain ⟨u, v, rfl, rfl, rfl⟩ := slice?_eq_some_iff.1 hc
  obtain ⟨x, z, he, rfl, rfl⟩ := slice?_eq_some_iff.1 hm
  simp only [List.append_assoc, List.singleton_append] at he
  -- Either the piece starts in front of the character, or the character comes first.
  rcases List.append_eq_append_iff.1 he with ⟨w, rfl, hw⟩ | ⟨w, rfl, hw⟩
  · cases w with
    | nil =>
      cases mid with
      | nil => right; simp
      | cons d mid =>
        simp only [List.nil_append, List.cons_append, List.cons.injEq] at hw
        exact absurd hw.1 (fun he => h (by simp [he]))
    | cons d w =>
      simp only [List.cons_append, List.cons.injEq] at hw
      left
      simp only [width_append, width_cons, ← hw.1, width_nil]
      omega
  · rcases List.append_eq_append_iff.1 hw with ⟨y, rfl, hy⟩ | ⟨y, rfl, hy⟩
    · right
      simp only [width_append]
      omega
    · cases y with
      | nil => right; simp
      | cons d y =>
        simp only [List.cons_append, List.cons.injEq] at hy
        exact absurd (by simp [hy.1]) h

/-- A piece that starts and ends with a character that is not blank. -/
def isSolid (t : Text) : Bool :=
  t.head?.map isBlank == some false && t.getLast?.map isBlank == some false

/-- Between the two offsets stands a solid piece. -/
def isSolidAt (t : Text) (a b : Nat) : Bool := (slice? t a b).any isSolid

/-- The first character of a solid piece. -/
theorem isSolidAt_head {t : Text} {a b : Nat} (h : isSolidAt t a b = true) :
    ∃ c p, slice? t a p = some [c] ∧ isBlank c = false ∧ a < p ∧ p ≤ b := by
  obtain ⟨mid, hm, hs⟩ := (Option.any_eq_true _ _).1 h
  unfold isSolid at hs
  cases mid with
  | nil => simp at hs
  | cons c mid =>
    obtain ⟨p, hap, hpb, hp⟩ := slice?_head hm
    simp only [List.head?_cons, Option.map_some, Bool.and_eq_true, beq_iff_eq,
      Option.some.injEq] at hs
    exact ⟨c, p, hp, hs.1, hap, hpb⟩

/-- The last character of a solid piece. -/
theorem isSolidAt_last {t : Text} {a b : Nat} (h : isSolidAt t a b = true) :
    ∃ c p, slice? t p b = some [c] ∧ isBlank c = false ∧ a ≤ p ∧ p < b := by
  obtain ⟨mid, hm, hs⟩ := (Option.any_eq_true _ _).1 h
  unfold isSolid at hs
  rcases List.eq_nil_or_concat mid with rfl | ⟨init, c, rfl⟩
  · simp at hs
  · rw [List.concat_eq_append] at hm hs
    obtain ⟨p, hap, hpb, hp⟩ := slice?_last hm
    rw [List.getLast?_concat] at hs
    simp only [Option.map_some, Bool.and_eq_true, beq_iff_eq, Option.some.injEq] at hs
    exact ⟨c, p, hp, hs.2, hap, hpb⟩

/-! ## Lines -/

theorem lastLine_split (t : Text) :
    ∃ above, t = above ++ lastLine t ∧ (above = [] ∨ above.getLast? = some '\n') := by
  unfold lastLine
  refine ⟨(t.reverse.dropWhile (· ≠ '\n')).reverse, ?_, ?_⟩
  · rw [← List.reverse_append, List.takeWhile_append_dropWhile, List.reverse_reverse]
  · rw [List.getLast?_reverse, List.reverse_eq_nil_iff]
    cases hd : t.reverse.dropWhile (· ≠ '\n') with
    | nil => exact Or.inl rfl
    | cons c rest =>
      have hc := List.head?_dropWhile_not (· ≠ '\n') t.reverse
      rw [hd] at hc
      right
      simpa using hc

theorem newline_not_mem_lastLine (t : Text) : '\n' ∉ lastLine t := by
  unfold lastLine
  intro h
  have hall := List.all_eq_true.1 List.all_takeWhile _ (List.mem_reverse.1 h)
  simp at hall

theorem firstLine?_eq_some {t line rest : Text} (h : firstLine? t = some (line, rest)) :
    t = line ++ rest ∧ line.getLast? = some '\n' := by
  induction t generalizing line with
  | nil => simp [firstLine?] at h
  | cons c t ih =>
    unfold firstLine? at h
    split at h
    · rename_i hc
      simp only [Option.some.injEq, Prod.mk.injEq] at h
      obtain ⟨rfl, rfl⟩ := h
      simp [hc]
    · obtain ⟨⟨a, b⟩, hab, he⟩ := Option.map_eq_some_iff.1 h
      obtain ⟨rfl, rfl⟩ := Prod.mk.inj he
      obtain ⟨rfl, hl⟩ := ih hab
      refine ⟨rfl, ?_⟩
      cases a with
      | nil => simp at hl
      | cons d a => simpa [List.getLast?_cons_cons] using hl

theorem isBlankText_iff {t : Text} : isBlankText t = true ↔ ∀ c ∈ t, isBlank c = true := by
  unfold isBlankText
  rw [List.all_eq_true]

end Uplift.Text
