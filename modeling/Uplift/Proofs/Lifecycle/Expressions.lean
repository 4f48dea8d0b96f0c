-- The signs of a body as regular expressions. Three of the signs look for a
-- pattern: they try every place of the text, and from there they read runs of
-- blanks and word characters as far as these go. What may follow a run never
-- starts with a character of the run, so reading on misses nothing, and a sign
-- holds exactly when the text can be cut into the parts of its expression.
import Mathlib.Computability.Language
import Uplift.Lifecycle.Signals
import Uplift.Proofs.Text.Trim

-- In the namespace `Language` is the language of a file, so the name is given before it.

/-- Sets of texts, with the operations of regular expressions. -/
abbrev TextLanguage := Language Char

namespace Uplift.Lifecycle

open scoped Computability
open Text (isBlank isWord isBlankText isBlankText_iff)

/-! ## Expressions -/

/-- One character that satisfies `p`. -/
def oneOf (p : Char → Bool) : TextLanguage := {t | ∃ c, p c = true ∧ t = [c]}

/-- The text `s` and nothing else. -/
def literal (s : String) : TextLanguage := {s.toList}

/-- Any number of blanks. -/
def blanks : TextLanguage := (oneOf isBlank)∗

/-- One word character or more. -/
def word : TextLanguage := oneOf isWord * (oneOf isWord)∗

/-- `{ key: {`, with or without blanks. -/
def nestedObject : TextLanguage :=
  literal "\x7b" * (blanks * (word * (blanks * (literal ":" * (blanks * literal "\x7b")))))

/-- A line comment with the end of its line. -/
def endedComment : TextLanguage := literal "//" * ((oneOf (· != '\n'))∗ * literal "\n")

/-- Any of the four operators that compare. -/
def comparison : TextLanguage := literal "!==" + literal "===" + literal "!=" + literal "=="

/-- The two that the other two begin or end with. -/
def looseComparison : TextLanguage := literal "==" + literal "!="

/-- A prop with its value. -/
def propAccess : TextLanguage := literal "this.props." * word

/-- A prop on one of the sides of `operator`. -/
def propCompared (operator : TextLanguage) : TextLanguage :=
  propAccess * (blanks * operator) + operator * (blanks * propAccess)

theorem mem_literal {s : String} {t : Text} : t ∈ literal s ↔ t = s.toList := Iff.rfl

theorem mem_run {p : Char → Bool} {t : Text} : t ∈ (oneOf p)∗ ↔ ∀ c ∈ t, p c = true := by
  rw [Language.mem_kstar]
  constructor
  · rintro ⟨parts, rfl, hparts⟩ c hc
    obtain ⟨part, hpart, hc⟩ := List.mem_flatten.1 hc
    obtain ⟨d, hd, rfl⟩ := hparts part hpart
    rw [List.mem_singleton.1 hc]
    exact hd
  · intro h
    refine ⟨t.map fun c => [c], by simp [← List.flatMap_def], ?_⟩
    intro part hpart
    obtain ⟨c, hc, rfl⟩ := List.mem_map.1 hpart
    exact ⟨c, h c hc, rfl⟩

theorem mem_blanks {t : Text} : t ∈ blanks ↔ isBlankText t = true := by
  rw [isBlankText_iff]
  exact mem_run

theorem mem_word {t : Text} : t ∈ word ↔ t ≠ [] ∧ ∀ c ∈ t, isWord c = true := by
  unfold word
  rw [Language.mem_mul]
  constructor
  · rintro ⟨_, ⟨c, hc, rfl⟩, run, hrun, rfl⟩
    refine ⟨by simp, ?_⟩
    intro d hd
    rcases List.mem_cons.1 hd with rfl | hd
    · exact hc
    · exact mem_run.1 hrun d hd
  · rintro ⟨hne, hall⟩
    cases t with
    | nil => exact absurd rfl hne
    | cons c run =>
      exact ⟨[c], ⟨c, hall c (by simp), rfl⟩, run,
        mem_run.2 fun d hd => hall d (List.mem_cons_of_mem _ hd), rfl⟩

/-! ## Reading at the front -/

/-- At the front of `t` stands a text of `l`. -/
def Opens (l : TextLanguage) (t : Text) : Prop := ∃ m ∈ l, m <+: t

/-- Every text of `l` starts with a character outside `p`. -/
def StartsOutside (p : Char → Bool) (l : TextLanguage) : Prop :=
  ∀ m ∈ l, ∃ c rest, m = c :: rest ∧ p c = false

theorem opens_add {l m : TextLanguage} {t : Text} :
    Opens (l + m) t ↔ Opens l t ∨ Opens m t := by
  unfold Opens
  simp only [Language.mem_add, or_and_right, exists_or]

theorem opens_mul {l m : TextLanguage} {t : Text} :
    Opens (l * m) t ↔ ∃ a ∈ l, ∃ rest, t = a ++ rest ∧ Opens m rest := by
  unfold Opens
  constructor
  · rintro ⟨_, ⟨a, ha, b, hb, rfl⟩, v, rfl⟩
    exact ⟨a, ha, b ++ v, by simp, b, hb, List.prefix_append b v⟩
  · rintro ⟨a, ha, _, rfl, b, hb, v, rfl⟩
    exact ⟨a ++ b, Language.append_mem_mul ha hb, v, by simp⟩

theorem opens_literal {s : String} {t : Text} : Opens (literal s) t ↔ s.toList <+: t := by
  unfold Opens
  simp [mem_literal]

theorem opens_literal_mul {s : String} {l : TextLanguage} {t : Text} :
    Opens (literal s * l) t ↔ ∃ rest, t = s.toList ++ rest ∧ Opens l rest := by
  rw [opens_mul]
  simp [mem_literal]

/-- A run is read as far as it goes: what is to follow cannot start inside it. -/
theorem opens_run_mul {p : Char → Bool} {l : TextLanguage} (hl : StartsOutside p l) {t : Text} :
    Opens ((oneOf p)∗ * l) t ↔ Opens l (t.dropWhile p) := by
  rw [opens_mul]
  constructor
  · rintro ⟨run, hrun, rest, rfl, hrest⟩
    obtain ⟨m, hm, v, rfl⟩ := hrest
    obtain ⟨c, rest, rfl, hc⟩ := hl m hm
    rw [List.dropWhile_append_of_pos (mem_run.1 hrun), List.cons_append,
      List.dropWhile_cons_of_neg (by simp [hc])]
    exact ⟨_, hm, List.prefix_append _ v⟩
  · intro h
    exact ⟨t.takeWhile p, mem_run.2 fun c hc => List.mem_takeWhile_imp hc, t.dropWhile p,
      List.takeWhile_append_dropWhile.symm, h⟩

theorem opens_blanks_mul {l : TextLanguage} (hl : StartsOutside isBlank l) {t : Text} :
    Opens (blanks * l) t ↔ Opens l (Text.trimStart t) := opens_run_mul hl

theorem opens_word_mul {l : TextLanguage} (hl : StartsOutside isWord l) {t : Text} :
    Opens (word * l) t ↔ t.head?.map isWord = some true ∧ Opens l (t.dropWhile isWord) := by
  unfold word
  rw [mul_assoc, opens_mul]
  constructor
  · rintro ⟨_, ⟨c, hc, rfl⟩, rest, rfl, hrest⟩
    rw [opens_run_mul hl] at hrest
    refine ⟨by simp [hc], ?_⟩
    rw [List.singleton_append, List.dropWhile_cons_of_pos hc]
    exact hrest
  · rintro ⟨hhead, hrest⟩
    cases t with
    | nil => simp at hhead
    | cons c rest =>
      have hc : isWord c = true := by simpa using hhead
      refine ⟨[c], ⟨c, hc, rfl⟩, rest, rfl, ?_⟩
      rw [opens_run_mul hl]
      rwa [List.dropWhile_cons_of_pos hc] at hrest

theorem opens_word {t : Text} : Opens word t ↔ t.head?.map isWord = some true := by
  unfold Opens
  constructor
  · rintro ⟨m, hm, v, rfl⟩
    obtain ⟨hne, hall⟩ := mem_word.1 hm
    cases m with
    | nil => exact absurd rfl hne
    | cons c m => simp [hall c (by simp)]
  · intro h
    cases t with
    | nil => simp at h
    | cons c rest =>
      have hc : isWord c = true := by simpa using h
      exact ⟨[c], mem_word.2 ⟨by simp, by simpa using hc⟩, rest, rfl⟩

/-! ## What a run cannot swallow -/

/-- No character is both a blank and part of a word. -/
theorem isWord_of_isBlank {c : Char} (h : isBlank c = true) : isWord c = false := by
  have hcode : c.toNat ∈ List.range' 9 5 ++ List.range' 0x2000 11 ++
      [0x20, 0x85, 0xa0, 0x1680, 0x2028, 0x2029, 0x202f, 0x205f, 0x3000] := by
    unfold isBlank at h
    simp only [Bool.or_eq_true, Bool.and_eq_true, decide_eq_true_eq, beq_iff_eq] at h
    simp only [List.mem_append, List.mem_range'_1, List.mem_cons, List.not_mem_nil]
    omega
  have hall : ∀ n ∈ List.range' 9 5 ++ List.range' 0x2000 11 ++
      [0x20, 0x85, 0xa0, 0x1680, 0x2028, 0x2029, 0x202f, 0x205f, 0x3000],
      isWord (Char.ofNat n) = false := by
    decide +kernel
  rw [← Char.ofNat_toNat c]
  exact hall _ hcode

theorem isBlank_of_isWord {c : Char} (h : isWord c = true) : isBlank c = false := by
  by_contra hb
  rw [isWord_of_isBlank (by simpa using hb)] at h
  cases h

theorem startsOutside_literal {p : Char → Bool} {s : String} {c : Char} {rest : Text}
    (hs : s.toList = c :: rest) (hc : p c = false) : StartsOutside p (literal s) :=
  fun _ hm => ⟨c, rest, (mem_literal.1 hm).trans hs, hc⟩

theorem StartsOutside.mul {p : Char → Bool} {l m : TextLanguage} (h : StartsOutside p l) :
    StartsOutside p (l * m) := by
  rintro _ ⟨a, ha, b, _, rfl⟩
  obtain ⟨c, rest, rfl, hc⟩ := h a ha
  exact ⟨c, rest ++ b, rfl, hc⟩

theorem StartsOutside.add {p : Char → Bool} {l m : TextLanguage} (hl : StartsOutside p l)
    (hm : StartsOutside p m) : StartsOutside p (l + m) := by
  rintro a (ha | ha)
  · exact hl a ha
  · exact hm a ha

theorem startsOutside_word : StartsOutside isBlank word := by
  intro m hm
  obtain ⟨hne, hall⟩ := mem_word.1 hm
  cases m with
  | nil => exact absurd rfl hne
  | cons c rest => exact ⟨c, rest, rfl, isBlank_of_isWord (hall c (by simp))⟩

theorem startsOutside_blanks_mul {l : TextLanguage} (hl : StartsOutside isWord l) :
    StartsOutside isWord (blanks * l) := by
  rintro _ ⟨gap, hgap, m, hm, rfl⟩
  cases gap with
  | nil => exact hl m hm
  | cons c rest => exact ⟨c, rest ++ m, rfl, isWord_of_isBlank (mem_run.1 hgap c (by simp))⟩

/-! ## The readers -/

theorem prefix_singleton_iff {c : Char} {t : Text} : [c] <+: t ↔ t.head? = some c := by
  cases t <;> simp [eq_comm]

theorem head?_dropWhile_ne_iff {c : Char} {t : Text} :
    (t.dropWhile (· != c)).head? = some c ↔ c ∈ t := by
  induction t with
  | nil => simp
  | cons d t ih =>
    by_cases hd : d = c
    · simp [hd]
    · rw [List.dropWhile_cons_of_pos (by simpa using hd), ih]
      simp [Ne.symm hd]

theorem opensNested_iff {t : Text} : opensNested t = true ↔ Opens nestedObject t := by
  have hbrace : StartsOutside isBlank (literal "\x7b") := startsOutside_literal rfl (by decide)
  have hcolon : StartsOutside isBlank (literal ":" * (blanks * literal "\x7b")) :=
    (startsOutside_literal rfl (by decide)).mul
  have hgap : StartsOutside isWord (blanks * (literal ":" * (blanks * literal "\x7b"))) :=
    startsOutside_blanks_mul (startsOutside_literal rfl (by decide)).mul
  unfold nestedObject
  simp only [opens_literal_mul, opens_blanks_mul startsOutside_word.mul, opens_word_mul hgap,
    opens_blanks_mul hcolon, opens_blanks_mul hbrace, opens_literal]
  unfold opensNested
  split
  · rename_i t
    dsimp only
    split
    · rename_i after hcut
      simp [hcut, prefix_singleton_iff]
    · rename_i hno
      simp only [Bool.false_eq_true, false_iff]
      rintro ⟨rest, ht, _, after, hcut, _⟩
      obtain rfl : t = rest := by simpa using ht
      exact hno after (by simpa using hcut)
  · rename_i hno
    simp only [Bool.false_eq_true, false_iff]
    rintro ⟨rest, rfl, _⟩
    exact hno rest rfl

theorem opensEndedComment_iff {t : Text} : opensEndedComment t = true ↔ Opens endedComment t := by
  have hend : StartsOutside (· != '\n') (literal "\n") := startsOutside_literal rfl (by decide)
  unfold endedComment
  simp only [opens_literal_mul, opens_run_mul hend, opens_literal]
  unfold opensEndedComment
  split
  · rename_i t
    simp [prefix_singleton_iff, head?_dropWhile_ne_iff]
  · rename_i hno
    simp only [Bool.false_eq_true, false_iff]
    rintro ⟨rest, rfl, _⟩
    exact hno rest rfl

theorem dropComparison?_eq_some {t rest : Text} :
    dropComparison? t = some rest ↔ t = "==".toList ++ rest ∨ t = "!=".toList ++ rest := by
  unfold dropComparison?
  split
  · simp
  · simp
  · rename_i hequal hdiffer
    simp only [reduceCtorEq, false_iff, not_or]
    exact ⟨fun h => hequal rest h, fun h => hdiffer rest h⟩

theorem dropProp?_eq_some {t rest : Text} :
    dropProp? t = some rest ↔ ∃ u, t = "this.props.".toList ++ u ∧
      u.head?.map isWord = some true ∧ rest = u.dropWhile isWord := by
  unfold dropProp?
  simp only [Option.bind_eq_bind, Option.bind_eq_some_iff, Text.dropLead?_eq_some_iff]
  apply exists_congr
  intro u
  apply and_congr_right
  intro _
  split
  · rename_i hword
    rw [beq_iff_eq] at hword
    simp [hword, eq_comm]
  · rename_i hword
    rw [beq_iff_eq] at hword
    simp [hword]

theorem opens_looseComparison {t : Text} :
    Opens looseComparison t ↔ ∃ rest, dropComparison? t = some rest := by
  unfold looseComparison
  simp only [opens_add, opens_literal, dropComparison?_eq_some, exists_or]
  simp only [List.IsPrefix, eq_comm]

theorem opens_looseComparison_mul {l : TextLanguage} {t : Text} :
    Opens (looseComparison * l) t ↔ ∃ rest, dropComparison? t = some rest ∧ Opens l rest := by
  unfold looseComparison
  simp only [add_mul, opens_add, opens_literal_mul, dropComparison?_eq_some, or_and_right,
    exists_or]

theorem opens_propAccess_mul {l : TextLanguage} (hl : StartsOutside isWord l) {t : Text} :
    Opens (propAccess * l) t ↔ ∃ rest, dropProp? t = some rest ∧ Opens l rest := by
  unfold propAccess
  rw [mul_assoc, opens_literal_mul]
  simp only [opens_word_mul hl, dropProp?_eq_some]
  constructor
  · rintro ⟨u, ht, hword, hl⟩
    exact ⟨_, ⟨u, ht, hword, rfl⟩, hl⟩
  · rintro ⟨_, ⟨u, ht, hword, rfl⟩, hl⟩
    exact ⟨u, ht, hword, hl⟩

theorem opens_propAccess {t : Text} :
    Opens propAccess t ↔ ∃ rest, dropProp? t = some rest := by
  unfold propAccess
  simp only [opens_literal_mul, opens_word, dropProp?_eq_some]
  constructor
  · rintro ⟨u, ht, hword⟩
    exact ⟨_, u, ht, hword, rfl⟩
  · rintro ⟨_, u, ht, hword, _⟩
    exact ⟨u, ht, hword⟩

theorem opensPropComparison_iff {t : Text} :
    opensPropComparison t = true ↔ Opens (propCompared looseComparison) t := by
  have hloose : StartsOutside isBlank looseComparison :=
    (startsOutside_literal rfl (by decide)).add (startsOutside_literal rfl (by decide))
  have hword : StartsOutside isWord (blanks * looseComparison) :=
    startsOutside_blanks_mul
      ((startsOutside_literal rfl (by decide)).add (startsOutside_literal rfl (by decide)))
  have hprop : StartsOutside isBlank propAccess := (startsOutside_literal rfl (by decide)).mul
  unfold propCompared opensPropComparison
  simp only [opens_add, opens_propAccess_mul hword, opens_blanks_mul hloose,
    opens_looseComparison, opens_looseComparison_mul, opens_blanks_mul hprop, opens_propAccess,
    Bool.or_eq_true, Option.isSome_iff_exists, Option.bind_eq_some_iff]
  constructor
  · rintro (⟨_, rest, hprop, hcompare⟩ | ⟨_, rest, hcompare, hprop⟩)
    · exact Or.inl ⟨rest, hprop, _, hcompare⟩
    · exact Or.inr ⟨rest, hcompare, _, hprop⟩
  · rintro (⟨rest, hprop, _, hcompare⟩ | ⟨rest, hcompare, _, hprop⟩)
    · exact Or.inl ⟨_, rest, hprop, hcompare⟩
    · exact Or.inr ⟨_, rest, hcompare, hprop⟩

/-! ## Searching -/

/-- A text of `l` stands somewhere in `t`. -/
def Occurs (l : TextLanguage) (t : Text) : Prop := ∃ m ∈ l, m <:+: t

theorem occurs_iff {l : TextLanguage} {t : Text} :
    Occurs l t ↔ ∃ before rest, t = before ++ rest ∧ Opens l rest := by
  unfold Occurs Opens
  constructor
  · rintro ⟨m, hm, before, after, rfl⟩
    exact ⟨before, m ++ after, by simp, m, hm, List.prefix_append m after⟩
  · rintro ⟨before, _, rfl, m, hm, after, rfl⟩
    exact ⟨m, hm, before, after, by simp⟩

theorem anywhere_iff {p : Text → Bool} {t : Text} :
    anywhere p t = true ↔ ∃ before rest, t = before ++ rest ∧ p rest = true := by
  induction t with
  | nil => simp [anywhere]
  | cons c t ih =>
    unfold anywhere
    rw [Bool.or_eq_true, ih]
    constructor
    · rintro (h | ⟨before, rest, rfl, h⟩)
      · exact ⟨[], c :: t, rfl, h⟩
      · exact ⟨c :: before, rest, rfl, h⟩
    · rintro ⟨before, rest, ht, h⟩
      cases before with
      | nil => exact Or.inl (ht ▸ h)
      | cons d before =>
        obtain ⟨rfl, rfl⟩ := List.cons.inj ht
        exact Or.inr ⟨before, rest, rfl, h⟩

/-- A reader that knows what opens a text finds it anywhere. -/
theorem anywhere_iff_occurs {p : Text → Bool} {l : TextLanguage}
    (h : ∀ t, p t = true ↔ Opens l t) {t : Text} : anywhere p t = true ↔ Occurs l t := by
  simp only [anywhere_iff, occurs_iff, h]

theorem mentions_iff {t part : Text} : Text.mentions t part = true ↔ part <:+: t := by
  induction t with
  | nil => simp [Text.mentions]
  | cons c t ih =>
    unfold Text.mentions
    rw [Bool.or_eq_true, ih, List.isPrefixOf_iff_prefix, List.infix_cons_iff]

/-- The text calls for a new state. -/
def SetsState (t : Text) : Prop := "this.setState".toList <:+: t

/-- Somewhere stands an opening brace, a key, a colon and an opening brace. -/
def NestsObject (t : Text) : Prop :=
  ∃ before gap key gap' gap'' after,
    t = before ++ '{' :: (gap ++ (key ++ (gap' ++ ':' :: (gap'' ++ '{' :: after)))) ∧
      isBlankText gap = true ∧ key ≠ [] ∧ (∀ c ∈ key, isWord c = true) ∧
      isBlankText gap' = true ∧ isBlankText gap'' = true

/-- Somewhere stand two slashes, and behind them a newline. -/
def EndsComment (t : Text) : Prop :=
  ∃ before comment after, t = before ++ '/' :: '/' :: (comment ++ '\n' :: after)

/-- The first two characters of an operator that compares. -/
def IsComparison (t : Text) : Prop := t = ['=', '='] ∨ t = ['!', '=']

/-- Somewhere a prop stands left or right of a comparison. -/
def ComparesProp (t : Text) : Prop :=
  (∃ before prop gap operator after,
    t = before ++ ("this.props.".toList ++ (prop ++ (gap ++ (operator ++ after)))) ∧
      prop ≠ [] ∧ (∀ c ∈ prop, isWord c = true) ∧ isBlankText gap = true ∧
      IsComparison operator) ∨
  ∃ before operator gap c after,
    t = before ++ (operator ++ (gap ++ ("this.props.".toList ++ c :: after))) ∧
      IsComparison operator ∧ isBlankText gap = true ∧ isWord c = true

theorem nestsObject_iff {t : Text} : NestsObject t ↔ Occurs nestedObject t := by
  rw [occurs_iff]
  unfold NestsObject nestedObject
  simp only [opens_mul, opens_literal, mem_literal, exists_eq_left, mem_blanks, mem_word]
  constructor
  · rintro ⟨before, gap, key, gap', gap'', after, rfl, hgap, hne, hkey, hgap', hgap''⟩
    exact ⟨before, _, rfl, _, rfl, gap, hgap, _, rfl, key, ⟨hne, hkey⟩, _, rfl, gap', hgap', _,
      rfl, _, rfl, gap'', hgap'', _, rfl, after, rfl⟩
  · rintro ⟨before, _, rfl, _, rfl, gap, hgap, _, rfl, key, ⟨hne, hkey⟩, _, rfl, gap', hgap', _,
      rfl, _, rfl, gap'', hgap'', _, rfl, after, rfl⟩
    exact ⟨before, gap, key, gap', gap'', after, rfl, hgap, hne, hkey, hgap', hgap''⟩

theorem endsComment_iff {t : Text} : EndsComment t ↔ Occurs endedComment t := by
  have hend : StartsOutside (· != '\n') (literal "\n") := startsOutside_literal rfl (by decide)
  rw [occurs_iff]
  unfold EndsComment endedComment
  simp only [opens_literal_mul, opens_run_mul hend, opens_literal]
  constructor
  · rintro ⟨before, comment, after, rfl⟩
    refine ⟨before, _, rfl, comment ++ '\n' :: after, rfl, ?_⟩
    exact prefix_singleton_iff.2 (head?_dropWhile_ne_iff.2 (by simp))
  · rintro ⟨before, _, rfl, rest, rfl, hnewline⟩
    have hmem := head?_dropWhile_ne_iff.1 (prefix_singleton_iff.1 hnewline)
    obtain ⟨comment, after, rfl⟩ := List.append_of_mem hmem
    exact ⟨before, comment, after, rfl⟩

theorem mem_looseComparison {t : Text} : t ∈ looseComparison ↔ IsComparison t := Iff.rfl

theorem comparesProp_iff {t : Text} :
    ComparesProp t ↔ Occurs (propCompared looseComparison) t := by
  rw [occurs_iff]
  unfold ComparesProp propCompared propAccess
  simp only [opens_add, mul_assoc, opens_mul, opens_word, mem_literal, exists_eq_left, mem_blanks,
    mem_word, mem_looseComparison]
  constructor
  · rintro (⟨before, prop, gap, operator, after, rfl, hne, hprop, hgap, ho⟩ |
      ⟨before, operator, gap, c, after, rfl, ho, hgap, hc⟩)
    · refine ⟨before, _, rfl, Or.inl ⟨_, rfl, prop, ⟨hne, hprop⟩, _, rfl, gap, hgap, _, rfl, ?_⟩⟩
      exact ⟨operator, ho, List.prefix_append operator after⟩
    · exact ⟨before, _, rfl,
        Or.inr ⟨operator, ho, _, rfl, gap, hgap, _, rfl, c :: after, rfl, by simp [hc]⟩⟩
  · rintro ⟨before, _, rfl, ⟨_, rfl, prop, ⟨hne, hprop⟩, _, rfl, gap, hgap, _, rfl, operator, ho,
      after, rfl⟩ | ⟨operator, ho, _, rfl, gap, hgap, _, rfl, rest, rfl, hc⟩⟩
    · exact Or.inl ⟨before, prop, gap, operator, after, rfl, hne, hprop, hgap, ho⟩
    · obtain ⟨c, hhead, hword⟩ := Option.map_eq_some_iff.1 hc
      obtain ⟨after, rfl⟩ := List.head?_eq_some_iff.1 hhead
      exact Or.inr ⟨before, operator, gap, c, after, rfl, ho, hgap, hword⟩

/-- Each operator starts and ends with one of two characters. -/
theorem loose_of_mem_comparison {t : Text} (h : t ∈ comparison) :
    (∃ a ∈ looseComparison, a <+: t) ∧ ∃ a ∈ looseComparison, a <:+ t := by
  have hequal : ['=', '='] ∈ looseComparison := Or.inl rfl
  have hdiffer : ['!', '='] ∈ looseComparison := Or.inr rfl
  rcases h with ((rfl | rfl) | rfl) | rfl
  · exact ⟨⟨_, hdiffer, by decide⟩, _, hequal, by decide⟩
  · exact ⟨⟨_, hequal, by decide⟩, _, hequal, by decide⟩
  · exact ⟨⟨_, hdiffer, by decide⟩, _, hdiffer, by decide⟩
  · exact ⟨⟨_, hequal, by decide⟩, _, hequal, by decide⟩

/-- The longer operators hold a shorter one on the side where the prop stands. -/
theorem occurs_comparison_iff {t : Text} :
    Occurs (propCompared comparison) t ↔ Occurs (propCompared looseComparison) t := by
  unfold Occurs
  constructor
  · rintro ⟨m, hm, hin⟩
    rcases hm with ⟨prop, hprop, _, ⟨gap, hgap, operator, ho, rfl⟩, rfl⟩ |
      ⟨operator, ho, _, ⟨gap, hgap, prop, hprop, rfl⟩, rfl⟩
    · obtain ⟨⟨a, ha, hpre⟩, _⟩ := loose_of_mem_comparison ho
      refine ⟨prop ++ (gap ++ a), Or.inl ?_, ?_⟩
      · exact Language.append_mem_mul hprop (Language.append_mem_mul hgap ha)
      · have hlonger : prop ++ (gap ++ a) <+: prop ++ (gap ++ operator) := by simpa using hpre
        exact hlonger.isInfix.trans hin
    · obtain ⟨_, a, ha, hsuf⟩ := loose_of_mem_comparison ho
      refine ⟨a ++ (gap ++ prop), Or.inr ?_, ?_⟩
      · exact Language.append_mem_mul ha (Language.append_mem_mul hgap hprop)
      · have hlonger : a ++ (gap ++ prop) <:+ operator ++ (gap ++ prop) := by
          obtain ⟨first, rfl⟩ := hsuf
          exact ⟨first, by simp⟩
        exact hlonger.isInfix.trans hin
  · rintro ⟨m, hm, hin⟩
    have hsub : ∀ a ∈ looseComparison, a ∈ comparison := by
      rintro a (rfl | rfl)
      · exact Or.inr rfl
      · exact Or.inl (Or.inr rfl)
    refine ⟨m, ?_, hin⟩
    rcases hm with ⟨prop, hprop, _, ⟨gap, hgap, operator, ho, rfl⟩, rfl⟩ |
      ⟨operator, ho, _, ⟨gap, hgap, prop, hprop, rfl⟩, rfl⟩
    · exact Or.inl (Language.append_mem_mul hprop (Language.append_mem_mul hgap (hsub _ ho)))
    · exact Or.inr (Language.append_mem_mul (hsub _ ho) (Language.append_mem_mul hgap hprop))

/-! ## The law -/

/-- A sign that looks for a pattern holds exactly when the body can be cut into the parts of the
pattern, wherever the cuts fall, and this is what its regular expression says. -/
theorem signs_mean_what_their_expressions_say (body : Text) :
    ((hasNestedStateObject body = true ↔ SetsState body ∧ NestsObject body) ∧
      (hasInlineComment body = true ↔ SetsState body ∧ EndsComment body) ∧
      (comparesProps body = true ↔ ComparesProp body)) ∧
    (NestsObject body ↔ Occurs nestedObject body) ∧
    (EndsComment body ↔ Occurs endedComment body) ∧
    (ComparesProp body ↔ Occurs (propCompared comparison) body) := by
  have hstate : callsSetState body = true ↔ SetsState body := mentions_iff
  unfold hasNestedStateObject hasInlineComment comparesProps
  refine ⟨⟨?_, ?_, ?_⟩, nestsObject_iff, endsComment_iff, ?_⟩
  · rw [Bool.and_eq_true, hstate, nestsObject_iff, anywhere_iff_occurs fun _ => opensNested_iff]
  · rw [Bool.and_eq_true, hstate, endsComment_iff,
      anywhere_iff_occurs fun _ => opensEndedComment_iff]
  · rw [comparesProp_iff, anywhere_iff_occurs fun _ => opensPropComparison_iff]
  · rw [comparesProp_iff, occurs_comparison_iff]

end Uplift.Lifecycle
