-- Values of a document, read back. A number, a truth value, a string and a list
-- of strings at the end of a line give the value that was written, and the
-- reader stops at the line end.
import Mathlib.Algebra.Ring.Nat
import Mathlib.Data.List.Basic
import Uplift.Proofs.Toml.Quotes
import Uplift.Toml.Reader

namespace Uplift.Toml

/-! ## Numbers -/

/-- Digits up to the end of the line. -/
inductive DigitLine : Text → Prop
  | newline (rest : Text) : DigitLine ('\n' :: rest)
  | digit {c : Char} {t : Text} : c.isDigit = true → DigitLine t → DigitLine (c :: t)

theorem DigitLine.append {ds : Text} (hds : ∀ c ∈ ds, c.isDigit = true) (rest : Text) :
    DigitLine (ds ++ '\n' :: rest) := by
  induction ds with
  | nil => exact .newline rest
  | cons c ds ih =>
    obtain ⟨hc, hds⟩ := List.forall_mem_cons.1 hds
    exact .digit hc (ih hds)

theorem DigitLine.readPair {t t' : Text} {low high n : Nat} (h : DigitLine t)
    (hread : readPair low high t = some (n, t')) : DigitLine t' := by
  cases h with
  | newline rest => cases rest <;> simp [Toml.readPair] at hread
  | digit hc h =>
    cases h with
    | newline rest => simp [Toml.readPair] at hread
    | digit hd h =>
      simp only [Toml.readPair, Option.ite_none_right_eq_some, Option.some.injEq,
        Prod.mk.injEq] at hread
      rwa [← hread.2.2]

theorem DigitLine.dropChar? {t : Text} {c : Char} (h : DigitLine t) (hc : c.isDigit = false)
    (hline : c ≠ '\n') : dropChar? c t = none := by
  cases h with
  | newline rest => simp [Toml.dropChar?, Ne.symm hline]
  | @digit d _ hd _ =>
    have hne : d ≠ c := by
      rintro rfl
      simp [hc] at hd
    simp [Toml.dropChar?, hne]

/-- A run of digits is no date: a date has a mark behind its second or fourth digit. -/
theorem DigitLine.readDate {t : Text} (h : DigitLine t) : readDate t = none := by
  have hday : readDay t = none := by
    simp only [readDay, Option.bind_eq_bind, Option.bind_eq_none_iff]
    intro century hcentury years hyears
    have hmark := ((h.readPair hcentury).readPair hyears).dropChar? (c := '-') rfl (by decide)
    simp [hmark]
  have htime : readTime t = none := by
    simp only [readTime, Option.bind_eq_bind, Option.bind_eq_none_iff]
    intro hour hhour
    have hmark := (h.readPair hhour).dropChar? (c := ':') rfl (by decide)
    simp [hmark]
  simp [Toml.readDate, hday, htime]

theorem hexValue?_digit {c : Char} (h : c.isDigit = true) :
    hexValue? c = some (c.toNat - '0'.toNat) := by
  rw [hexValue?, if_pos h]

theorem printNat_eq (n : Nat) : printNat n = Nat.toDigits 10 n := by
  rw [printNat, Nat.toString_eq_ofList_toDigits, String.toList_ofList]

theorem printNat_digits (n : Nat) : ∀ c ∈ printNat n, c.isDigit = true := by
  intro c hc
  rw [printNat_eq] at hc
  exact Nat.isDigit_of_mem_toDigits (by decide) (by decide) hc

theorem valueIn_printNat (n : Nat) : valueIn 10 (printNat n) = n := by
  calc valueIn 10 (printNat n)
      = (printNat n).foldl (fun m c => 10 * m + (c.toNat - '0'.toNat)) 0 := by
        refine List.foldl_ext _ _ 0 fun m c hc => ?_
        rw [hexValue?_digit (printNat_digits n c hc), Option.getD_some, Nat.mul_comm]
    _ = n := by rw [← Nat.ofDigitChars_eq_foldl, printNat_eq, Nat.ofDigitChars_ten_toDigits]

theorem digitRun_digits {ds : Text} (hds : ∀ c ∈ ds, c.isDigit = true) (rest : Text) :
    digitRun Char.isDigit (ds ++ '\n' :: rest) = (ds, '\n' :: rest) := by
  induction ds with
  | nil => simp [digitRun]
  | cons c ds ih =>
    obtain ⟨hc, hds⟩ := List.forall_mem_cons.1 hds
    have hne : c ≠ '_' := by rintro rfl; simp at hc
    simp [digitRun, hc, hne, ih hds]

/-- A number is written without zeros in front. -/
theorem head?_printNat {n : Nat} (hn : 0 < n) : (printNat n).head? ≠ some '0' := by
  rw [printNat_eq]
  induction n using Nat.strongRecOn with
  | ind n ih =>
    by_cases hsmall : n < 10
    · have hdigit : ∀ m < 10, 0 < m → Nat.digitChar m ≠ '0' := by decide
      rw [Nat.toDigits_of_lt_base hsmall]
      simpa using hdigit n hsmall hn
    · have hlead := ih (n / 10) (by omega) (by omega)
      have hsome := List.isSome_head?.2 (Nat.toDigits_ne_nil (n := n / 10) (b := 10))
      rw [Nat.toDigits_of_base_le (by decide) (by omega), List.head?_append,
        Option.or_of_isSome hsome]
      exact hlead

theorem readWhole_digits {d : Char} {ds : Text} (hds : ∀ c ∈ d :: ds, c.isDigit = true)
    (hlead : d ≠ '0') (rest : Text) :
    readWhole (d :: ds ++ '\n' :: rest) = some (d :: ds, '\n' :: rest) := by
  have hrun := digitRun_digits hds rest
  rw [List.cons_append] at hrun ⊢
  rw [readWhole.eq_def]
  simp [readDigits, hlead, hds d List.mem_cons_self, hrun]

theorem readSign_digit {d : Char} (hd : d.isDigit = true) (t : Text) :
    readSign (d :: t) = (false, d :: t) := by
  rw [readSign.eq_def]
  split <;> simp_all

theorem readFraction_digits {d : Char} {ds : Text} (hds : ∀ c ∈ d :: ds, c.isDigit = true)
    (hlead : d ≠ '0') (rest : Text) : readFraction (d :: ds ++ '\n' :: rest) = none := by
  have hwhole := readWhole_digits hds hlead rest
  rw [List.cons_append] at hwhole ⊢
  simp [readFraction, readSign_digit (hds d List.mem_cons_self), hwhole, readExponent]

theorem readSpecial_digit {d : Char} (hd : d.isDigit = true) (t : Text) :
    readSpecial (d :: t) = none := by
  rw [readSpecial, readSign_digit hd]
  split <;> simp_all

theorem readInteger_digits {d : Char} {ds : Text} (hds : ∀ c ∈ d :: ds, c.isDigit = true)
    (hlead : d ≠ '0') (hfits : fitsWord (valueIn 10 (d :: ds)) = true) (rest : Text) :
    readInteger (d :: ds ++ '\n' :: rest) = some (.int (valueIn 10 (d :: ds)), '\n' :: rest) := by
  have hwhole := readWhole_digits hds hlead rest
  rw [List.cons_append] at hwhole ⊢
  rw [readInteger.eq_def]
  simp [hlead, readSign_digit (hds d List.mem_cons_self), hwhole, hfits]

theorem readScalar_digit {d : Char} (hd : d.isDigit = true) (t : Text) :
    readScalar (d :: t) = (readDate (d :: t) <|> readFraction (d :: t) <|>
      readSpecial (d :: t) <|> readInteger (d :: t)) := by
  rw [readScalar.eq_def]
  split <;> simp_all

theorem fitsWord_nat {n : Nat} (h : n ≤ 2 ^ 63 - 1) : fitsWord n = true := by
  have hmin : Int64.minValue.toInt = -2 ^ 63 := rfl
  have hmax : Int64.maxValue.toInt = 2 ^ 63 - 1 := rfl
  simp only [fitsWord, hmin, hmax, Bool.and_eq_true, decide_eq_true_eq]
  omega

/-- A positive number starts with a digit other than zero. -/
theorem exists_printNat {n : Nat} (hn : 0 < n) : ∃ d ds, printNat n = d :: ds ∧ d ≠ '0' := by
  have hne : printNat n ≠ [] := printNat_eq n ▸ Nat.toDigits_ne_nil
  obtain ⟨d, ds, heq⟩ := List.exists_cons_of_ne_nil hne
  have hlead := head?_printNat hn
  rw [heq] at hlead
  exact ⟨d, ds, heq, by simpa using hlead⟩

/-- A number at the end of a line is none of the things that also start with a digit. -/
theorem readScalar_printNat {n : Nat} (hpos : 0 < n) (hfits : n ≤ 2 ^ 63 - 1) (rest : Text) :
    readScalar (printNat n ++ '\n' :: rest) = some (.int n, '\n' :: rest) := by
  have hdigits := printNat_digits n
  have hvalue := valueIn_printNat n
  obtain ⟨d, ds, heq, hlead⟩ := exists_printNat hpos
  rw [heq] at hdigits hvalue ⊢
  have hd := hdigits d List.mem_cons_self
  have hdate := (DigitLine.append hdigits rest).readDate
  have hfraction := readFraction_digits hdigits hlead rest
  have hinteger := readInteger_digits hdigits hlead (hvalue ▸ fitsWord_nat hfits) rest
  rw [List.cons_append] at hdate hfraction hinteger ⊢
  rw [readScalar_digit hd, hdate, hfraction, readSpecial_digit hd, hinteger, hvalue]
  rfl

/-! ## Strings and lists -/

theorem readValue_printText (depth : Nat) (s : String) {rest : Text} (hrest : NoQuote rest) :
    readValue depth (printText s ++ rest) = some (.str s, rest) := by
  have hscalar := readScalar_printText s hrest
  obtain ⟨t, h | h⟩ := printText_head s
  all_goals
    rw [h, List.cons_append] at hscalar ⊢
    simp [readValue, hscalar]

theorem skipTrivia_printText (s : String) (rest : Text) :
    skipTrivia false (printText s ++ rest) = printText s ++ rest := by
  obtain ⟨t, h | h⟩ := printText_head s
  all_goals
    rw [h, List.cons_append]
    simp [skipTrivia, isGap]

theorem head?_printText (s : String) (rest : Text) : (printText s ++ rest).head? ≠ some ']' := by
  obtain ⟨t, h | h⟩ := printText_head s
  all_goals simp [h]

theorem readItems_comma {readOne : Text → Option (Value × Text)} {t start rest : Text} {v : Value}
    (fuel : Nat) (ht : skipTrivia false t = start) (hopen : start.head? ≠ some ']')
    (hread : readOne start = some (v, ',' :: rest)) :
    readItems readOne (fuel + 1) t =
      (readItems readOne fuel rest).map fun (vs, r) => (v :: vs, r) := by
  rw [readItems, ht]
  split
  · simp at hopen
  · simp [hread, skipTrivia, isGap]

theorem readItems_last {readOne : Text → Option (Value × Text)} {t start rest : Text} {v : Value}
    (fuel : Nat) (ht : skipTrivia false t = start) (hopen : start.head? ≠ some ']')
    (hread : readOne start = some (v, ']' :: rest)) :
    readItems readOne (fuel + 1) t = some ([v], rest) := by
  rw [readItems, ht]
  split
  · simp at hopen
  · simp [hread, skipTrivia, isGap]

/-- An item in the layout of a longer list: on a line of its own, with a comma. -/
def itemLine (s : String) : Text := "\n    ".toList ++ printText s ++ [',']

theorem readItems_lines (depth : Nat) {fuel : Nat} (ss : List String) (rest : Text)
    (hfuel : ss.length < fuel) :
    readItems (readValue depth) fuel (ss.flatMap itemLine ++ '\n' :: ']' :: rest) =
      some (ss.map .str, rest) := by
  -- Every item takes a turn, and so does the closing bracket.
  induction ss generalizing fuel with
  | nil =>
    obtain ⟨fuel, rfl⟩ := Nat.exists_eq_add_one_of_ne_zero (Nat.ne_of_gt hfuel)
    simp [readItems, skipTrivia, isGap]
  | cons s ss ih =>
    obtain ⟨fuel, rfl⟩ := Nat.exists_eq_add_one_of_ne_zero (Nat.ne_zero_of_lt hfuel)
    have htrivia (more : Text) :
        skipTrivia false (itemLine s ++ more) = printText s ++ ',' :: more := by
      simpa [itemLine, skipTrivia, isGap] using skipTrivia_printText s (',' :: more)
    rw [List.flatMap_cons, List.append_assoc,
      readItems_comma fuel (htrivia _) (head?_printText s _)
        (readValue_printText depth s (noQuote_cons (by decide) (by decide) _)),
      ih (Nat.lt_of_succ_lt_succ hfuel)]
    rfl

theorem length_le_flatMap_itemLine (ss : List String) :
    ss.length ≤ (ss.flatMap itemLine).length := by
  induction ss with
  | nil => simp
  | cons s ss ih =>
    rw [List.flatMap_cons, List.length_append, List.length_cons]
    simp only [itemLine, List.length_append, List.length_singleton]
    omega

/-- A list of strings is read back from its brackets. -/
theorem readValue_printTexts (depth : Nat) (ss : List String) (rest : Text) :
    readValue (depth + 1) (printTexts ss ++ rest) = some (.list (ss.map .str), rest) := by
  match ss with
  | [] => simp [printTexts, readValue, readItems, skipTrivia, isGap]
  | [s] =>
    have hprint : printTexts [s] ++ rest = '[' :: (printText s ++ ']' :: rest) := by
      simp [printTexts]
    rw [hprint, readValue, readItems_last _ (skipTrivia_printText s _) (head?_printText s _)
      (readValue_printText depth s (noQuote_cons (by decide) (by decide) _))]
    rfl
  | s :: s' :: ss =>
    have hprint : printTexts (s :: s' :: ss) ++ rest =
        '[' :: ((s :: s' :: ss).flatMap itemLine ++ '\n' :: ']' :: rest) := by
      change '[' :: (s :: s' :: ss).flatMap itemLine ++ ['\n', ']'] ++ rest = _
      simp
    have hlength := length_le_flatMap_itemLine (s :: s' :: ss)
    rw [hprint, readValue, readItems_lines]
    · rfl
    · rw [List.length_append]
      omega

/-! ## Values at the end of a line -/

/-- At the end of a line, the text is read as the value. -/
def Written (v : Value) (t : Text) : Prop :=
  ∀ rest, readValue maxDepth (skipGap (t ++ '\n' :: rest)) = some (v, '\n' :: rest)

theorem skipGap_cons {c : Char} (hc : isGap c = false) (t : Text) : skipGap (c :: t) = c :: t :=
  List.dropWhile_cons_of_neg (by simp [hc])

theorem isGap_digit {d : Char} (hd : d.isDigit = true) : isGap d = false := by
  simp only [isGap, Bool.or_eq_false_iff, beq_eq_false_iff_ne]
  constructor <;> rintro rfl <;> simp at hd

theorem readValue_digit (depth : Nat) {d : Char} (hd : d.isDigit = true) (t : Text) :
    readValue depth (d :: t) = readScalar (d :: t) := by
  rw [readValue.eq_def]
  split <;> simp_all

theorem written_text (s : String) : Written (.str s) (printText s) := by
  intro rest
  have hread : readValue maxDepth (printText s ++ '\n' :: rest) = some (.str s, '\n' :: rest) :=
    readValue_printText maxDepth s (noQuote_cons (by decide) (by decide) _)
  obtain ⟨t, h | h⟩ := printText_head s
  all_goals
    rw [h, List.cons_append] at hread ⊢
    rwa [skipGap_cons rfl]

theorem written_texts (ss : List String) : Written (.list (ss.map .str)) (printTexts ss) := by
  intro rest
  obtain ⟨t, h⟩ : ∃ t, printTexts ss = '[' :: t := by
    fun_cases printTexts ss <;> exact ⟨_, rfl⟩
  have hread := readValue_printTexts 78 ss ('\n' :: rest)
  rw [h, List.cons_append] at hread ⊢
  rwa [skipGap_cons rfl]

theorem written_bool (b : Bool) : Written (.bool b) (printBool b) := by
  intro rest
  cases b <;> simp [printBool, skipGap, isGap, readValue, readScalar]

theorem written_nat {n : Nat} (hpos : 0 < n) (hfits : n ≤ 2 ^ 63 - 1) :
    Written (.int n) (printNat n) := by
  intro rest
  have hread := readScalar_printNat hpos hfits rest
  have hdigits := printNat_digits n
  obtain ⟨d, ds, heq, -⟩ := exists_printNat hpos
  rw [heq] at hdigits
  have hd := hdigits d List.mem_cons_self
  rw [heq, List.cons_append] at hread ⊢
  rw [skipGap_cons (isGap_digit hd), readValue_digit maxDepth hd, hread]

end Uplift.Toml
