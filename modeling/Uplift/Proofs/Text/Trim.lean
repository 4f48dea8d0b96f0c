-- Trimming. A text is blanks, then what trimming leaves, then blanks. What it
-- leaves is empty or solid, and around a solid piece any blanks come off again.
import Uplift.Proofs.Text.Places
import Mathlib.Data.List.DropRight

namespace Uplift.Text

/-! ## Solid pieces -/

theorem isSolid_iff {t : Text} : isSolid t = true ↔
    (∃ c, t.head? = some c ∧ isBlank c = false) ∧
      ∃ c, t.getLast? = some c ∧ isBlank c = false := by
  unfold isSolid
  simp only [Bool.and_eq_true, beq_iff_eq, Option.map_eq_some_iff]

theorem isSolid_ne_nil {t : Text} (h : isSolid t = true) : t ≠ [] := by
  rintro rfl
  cases h

/-- Solid pieces stay so with anything between them. -/
theorem isSolid_append {s t : Text} (mid : Text) (hs : isSolid s = true) (ht : isSolid t = true) :
    isSolid (s ++ mid ++ t) = true := by
  obtain ⟨⟨c, hc, hcb⟩, _⟩ := isSolid_iff.1 hs
  obtain ⟨_, d, hd, hdb⟩ := isSolid_iff.1 ht
  refine isSolid_iff.2 ⟨⟨c, ?_, hcb⟩, d, ?_, hdb⟩
  · rw [List.append_assoc, List.head?_append, hc, Option.some_or]
  · rw [List.getLast?_append, hd, Option.some_or]

theorem isBlankText_append {s t : Text} :
    isBlankText (s ++ t) = true ↔ isBlankText s = true ∧ isBlankText t = true := by
  unfold isBlankText
  rw [List.all_append, Bool.and_eq_true]

theorem isBlankText_cons {c : Char} {t : Text} :
    isBlankText (c :: t) = true ↔ isBlank c = true ∧ isBlankText t = true := by
  unfold isBlankText
  rw [List.all_cons, Bool.and_eq_true]

/-- A solid piece is not blank. -/
theorem not_isBlankText_of_isSolid {t : Text} (h : isSolid t = true) : isBlankText t = false := by
  obtain ⟨⟨c, hc, hcb⟩, _⟩ := isSolid_iff.1 h
  rw [Bool.eq_false_iff]
  intro hall
  have := isBlankText_iff.1 hall c (List.mem_of_mem_head? hc)
  rw [hcb] at this
  cases this

/-- No blanks stand before a solid piece. -/
theorem eq_nil_of_isSolid_left {l t : Text} (h : isSolid (l ++ t) = true)
    (hl : isBlankText l = true) : l = [] := by
  obtain ⟨⟨c, hc, hcb⟩, _⟩ := isSolid_iff.1 h
  cases l with
  | nil => rfl
  | cons d l =>
    rw [List.cons_append, List.head?_cons, Option.some.injEq] at hc
    rw [← hc, (isBlankText_cons.1 hl).1] at hcb
    cases hcb

/-- No blanks stand behind a solid piece. -/
theorem eq_nil_of_isSolid_right {t r : Text} (h : isSolid (t ++ r) = true)
    (hr : isBlankText r = true) : r = [] := by
  obtain ⟨_, c, hc, hcb⟩ := isSolid_iff.1 h
  rcases List.eq_nil_or_concat r with rfl | ⟨r, d, rfl⟩
  · rfl
  · rw [List.concat_eq_append] at hc hr
    rw [← List.append_assoc, List.getLast?_concat, Option.some.injEq] at hc
    rw [← hc, isBlankText_iff.1 hr d (by simp)] at hcb
    cases hcb

/-! ## Trimming one end -/

theorem trimEnd_eq_self {t : Text} (h : ∀ c, t.getLast? = some c → isBlank c = false) :
    trimEnd t = t := by
  refine List.rdropWhile_eq_self_iff.2 fun hne => ?_
  rw [h _ (List.getLast?_eq_some_getLast hne)]
  exact Bool.false_ne_true

theorem trimEnd_append_blank (t : Text) {r : Text} (hr : isBlankText r = true) :
    trimEnd (t ++ r) = trimEnd t := by
  induction r using List.reverseRecOn with
  | nil => rw [List.append_nil]
  | append_singleton r c ih =>
    obtain ⟨hr, hc⟩ := isBlankText_append.1 hr
    have hc : isBlank c = true := isBlankText_iff.1 hc c (by simp)
    rw [← List.append_assoc]
    exact (List.rdropWhile_concat_pos _ _ c hc).trans (ih hr)

theorem trimStart_blank_append {l : Text} (hl : isBlankText l = true) (t : Text) :
    trimStart (l ++ t) = trimStart t := by
  unfold trimStart
  rw [List.dropWhile_append, List.dropWhile_eq_nil_iff.2 (isBlankText_iff.1 hl)]
  rfl

theorem exists_trimEnd (t : Text) :
    ∃ r, t = trimEnd t ++ r ∧ isBlankText r = true ∧
      ∀ c, (trimEnd t).getLast? = some c → isBlank c = false := by
  refine ⟨t.rtakeWhile isBlank, List.rdropWhile_append_rtakeWhile.symm, ?_, ?_⟩
  · exact isBlankText_iff.2 fun c hc => List.mem_rtakeWhile_imp hc
  · intro c hc
    obtain ⟨hne, hlast⟩ := List.mem_getLast?_eq_getLast hc
    rw [hlast]
    exact Bool.eq_false_iff.2 (List.rdropWhile_last_not isBlank t hne)

/-- What is dropped at the end leaves the first character, unless it is dropped too. -/
theorem head?_dropEndWhile {p : Char → Bool} {t : Text} {c : Char} (ht : t.head? = some c)
    (hc : p c = false) : (dropEndWhile p t).head? = some c := by
  obtain ⟨r, hr⟩ : dropEndWhile p t <+: t := List.rdropWhile_prefix p t
  cases hkept : dropEndWhile p t with
  | nil =>
    have hall := List.rdropWhile_eq_nil_iff.1 hkept c (List.mem_of_mem_head? ht)
    rw [hc] at hall
    cases hall
  | cons d rest =>
    rw [← hr, hkept] at ht
    exact ht

theorem head?_trimEnd {t : Text} {c : Char} (ht : t.head? = some c) (hc : isBlank c = false) :
    (trimEnd t).head? = some c :=
  head?_dropEndWhile ht hc

/-- Trimming the end of a text leaves what stands before a character that is not blank. -/
theorem trimEnd_append_of_head? {s t : Text} {c : Char} (ht : t.head? = some c)
    (hc : isBlank c = false) : trimEnd (s ++ t) = s ++ trimEnd t := by
  obtain ⟨r, hr, hblank, hlast⟩ := exists_trimEnd t
  have hne : trimEnd t ≠ [] := by
    intro hnil
    have hhead := head?_trimEnd ht hc
    rw [hnil] at hhead
    cases hhead
  conv_lhs => rw [hr, ← List.append_assoc, trimEnd_append_blank _ hblank]
  refine trimEnd_eq_self fun d hd => hlast d ?_
  rwa [List.getLast?_append, List.getLast?_eq_some_getLast hne, Option.some_or,
    ← List.getLast?_eq_some_getLast hne] at hd

theorem trimStart_of_head? {t : Text} (h : ∀ c, t.head? = some c → isBlank c = false) :
    trimStart t = t := by
  cases t with
  | nil => rfl
  | cons c t => exact List.dropWhile_cons_of_neg (by simp [h c rfl])

theorem exists_trimStart (t : Text) :
    ∃ l, t = l ++ trimStart t ∧ isBlankText l = true ∧
      ∀ c, (trimStart t).head? = some c → isBlank c = false := by
  refine ⟨t.takeWhile isBlank, List.takeWhile_append_dropWhile.symm, ?_, ?_⟩
  · exact List.all_takeWhile
  · intro c hc
    have hnot := List.head?_dropWhile_not isBlank t
    unfold trimStart at hc
    rw [hc] at hnot
    simpa using hnot

/-! ## Trimming both ends -/

theorem trim_pad {l r : Text} (t : Text) (hl : isBlankText l = true) (hr : isBlankText r = true)
    (ht : t = [] ∨ isSolid t = true) : trim (l ++ t ++ r) = t := by
  unfold trim
  rw [List.append_assoc, trimStart_blank_append hl]
  rcases ht with rfl | ht
  · have hnil : trimStart r = [] := List.dropWhile_eq_nil_iff.2 (isBlankText_iff.1 hr)
    rw [List.nil_append, hnil]
    rfl
  · obtain ⟨⟨c, hc, hcb⟩, d, hd, hdb⟩ := isSolid_iff.1 ht
    have hstart : trimStart (t ++ r) = t ++ r := by
      refine trimStart_of_head? fun e he => ?_
      rw [List.head?_append, hc, Option.some_or] at he
      rw [← Option.some.inj he, hcb]
    rw [hstart, trimEnd_append_blank t hr]
    refine trimEnd_eq_self fun c hc => ?_
    obtain rfl := Option.some.inj (hd.symm.trans hc)
    exact hdb

/-- What trimming takes off is blank, and what it leaves is empty or solid. -/
theorem exists_pad (t : Text) :
    ∃ l r, t = l ++ trim t ++ r ∧ isBlankText l = true ∧ isBlankText r = true ∧
      (trim t = [] ∨ isSolid (trim t) = true) := by
  obtain ⟨l, hl, hlb, hhead⟩ := exists_trimStart t
  obtain ⟨r, hr, hrb, hlast⟩ := exists_trimEnd (trimStart t)
  refine ⟨l, r, ?_, hlb, hrb, ?_⟩
  · unfold trim
    rw [List.append_assoc, ← hr]
    exact hl
  · unfold trim
    by_cases hnil : trimEnd (trimStart t) = []
    · exact Or.inl hnil
    · right
      obtain ⟨c, rest, hc⟩ := List.exists_cons_of_ne_nil hnil
      refine isSolid_iff.2 ⟨⟨c, ?_, hhead c ?_⟩, _, List.getLast?_eq_some_getLast hnil,
        hlast _ (List.getLast?_eq_some_getLast hnil)⟩
      · rw [hc, List.head?_cons]
      · rw [hr, hc, List.cons_append, List.head?_cons]

theorem trim_eq_self_iff {t : Text} : trim t = t ↔ t = [] ∨ isSolid t = true := by
  constructor
  · intro h
    obtain ⟨_, _, _, _, _, hsolid⟩ := exists_pad t
    rwa [h] at hsolid
  · intro h
    simpa using trim_pad (l := []) (r := []) t rfl rfl h

theorem trim_trim (t : Text) : trim (trim t) = trim t := by
  obtain ⟨_, _, _, _, _, hsolid⟩ := exists_pad t
  exact trim_eq_self_iff.2 hsolid

theorem trim_eq_nil_iff {t : Text} : trim t = [] ↔ isBlankText t = true := by
  obtain ⟨l, r, ht, hl, hr, _⟩ := exists_pad t
  constructor
  · intro h
    rw [ht, h, List.append_nil]
    exact isBlankText_append.2 ⟨hl, hr⟩
  · intro h
    simpa using trim_pad [] h (r := []) rfl (Or.inl rfl)

theorem trimTerminator_prefix (t : Text) : trimTerminator t <+: trimStart t := by
  have hblank : trim t <+: trimStart t := List.rdropWhile_prefix isBlank _
  have hsemi : dropEndWhile (· == ';') (trim t) <+: trim t := List.rdropWhile_prefix _ _
  exact ((List.rdropWhile_prefix isBlank _).trans hsemi).trans hblank

/-- Without a semicolon at the end there is only the trimming. -/
theorem trimTerminator_eq_trim {t : Text} (h : (trim t).getLast? ≠ some ';') :
    trimTerminator t = trim t := by
  obtain ⟨_, _, _, _, _, hsolid⟩ := exists_pad t
  unfold trimTerminator
  have hkept : dropEndWhile (· == ';') (trim t) = trim t := by
    refine List.rdropWhile_eq_self_iff.2 fun hne hsemi => h ?_
    rw [List.getLast?_eq_some_getLast hne, beq_iff_eq.1 hsemi]
  rw [hkept]
  refine trimEnd_eq_self fun c hc => ?_
  rcases hsolid with hnil | hsolid
  · rw [hnil] at hc
    cases hc
  · obtain ⟨_, d, hd, hdb⟩ := isSolid_iff.1 hsolid
    obtain rfl := Option.some.inj (hd.symm.trans hc)
    exact hdb

/-! ## A lead -/

theorem dropLead?_eq_some_iff {t lead rest : Text} :
    dropLead? t lead = some rest ↔ t = lead ++ rest := by
  fun_induction dropLead? t lead with
  | case1 t => simp [eq_comm]
  | case2 => simp
  | case3 t d lead ih => simpa using ih
  | case4 c t d lead hne => simp [hne]

end Uplift.Text
