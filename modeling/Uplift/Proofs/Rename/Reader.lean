-- The mask of a text, read one character at a time. The reader looks one
-- character ahead, and of that character it only asks whether it completes a
-- pair. No letter of an identifier does, and none moves a reader that stands in
-- code. So a text whose words in code are spelled differently is read the same
-- way everywhere else.
import Uplift.Rename.Identifier

namespace Uplift.Rename

/-! ## The reader -/

/-- Where the reader stands. After the first character of a pair it skips the second. -/
structure Reader where
  lexeme : Lexeme
  braces : Braces
  skips : Bool := false
deriving DecidableEq

namespace Reader

/-- Read a character of code that `next` follows: whether it is code, and where the reader is
behind it. -/
def readCode (b : Braces) (c : Char) (next : Option Char) : Bool × Reader :=
  if c = '/' ∧ next = some '/' then (false, ⟨.lineComment, b, true⟩)
  else if c = '/' ∧ next = some '*' then (false, ⟨.blockComment, b, true⟩)
  else if c = '\'' ∨ c = '"' then (false, ⟨.quoted c, b, false⟩)
  else if c = '`' then (false, ⟨.template, b, false⟩)
  else if c = '{' then (true, ⟨.code, b.enter, false⟩)
  else if c = '}' then
    if b.closesSubstitution then (false, ⟨.template, b.leaveSubstitution, false⟩)
    else (true, ⟨.code, b.leave, false⟩)
  else (true, ⟨.code, b, false⟩)

/-- Read a character that `next` follows. -/
def read (r : Reader) (c : Char) (next : Option Char) : Bool × Reader :=
  if r.skips then (false, { r with skips := false })
  else
    match r.lexeme with
    | .code => readCode r.braces c next
    | .quoted q =>
      (false,
        if c = '\\' then { r with skips := true }
        else if c = q ∨ c = '\n' then ⟨.code, r.braces, false⟩
        else r)
    | .template =>
      (false,
        if c = '\\' then { r with skips := true }
        else if c = '`' then ⟨.code, r.braces, false⟩
        else if c = '$' ∧ next = some '{' then ⟨.code, r.braces.enterSubstitution, true⟩
        else r)
    | .lineComment => if c = '\n' then (true, ⟨.code, r.braces, false⟩) else (false, r)
    | .blockComment =>
      (false, if c = '*' ∧ next = some '/' then ⟨.code, r.braces, true⟩ else r)

/-- The characters of a text, each with whether it is code. -/
def mark (r : Reader) : Text → Marked
  | [] => []
  | c :: t => (c, (r.read c t.head?).1) :: (r.read c t.head?).2.mark t

end Reader

/-- Two characters that do not stand at the front are no pair. -/
theorem not_pair {c x y : Char} {t : Text} (h : ∀ t', c = x → t = y :: t' → False) :
    ¬ (c = x ∧ t.head? = some y) := by
  rintro ⟨hc, hy⟩
  obtain ⟨t', ht⟩ := List.head?_eq_some_iff.1 hy
  exact h t' hc ht

@[simp]
theorem Reader.mark_fst (r : Reader) (t : Text) : (r.mark t).map Prod.fst = t := by
  induction t generalizing r with
  | nil => rfl
  | cons c t ih => simp [mark, ih]

/-- The mask is what the reader says of each character. -/
theorem zip_maskFrom (l : Lexeme) (b : Braces) (t : Text) :
    t.zip (maskFrom l b t) = (⟨l, b, false⟩ : Reader).mark t := by
  fun_induction maskFrom l b t with
  | case10 b c rest hline hblock hquote hdouble htick hopen hclose ih =>
    have hother : c ≠ '\'' ∧ c ≠ '"' ∧ c ≠ '`' ∧ c ≠ '{' ∧ c ≠ '}' :=
      ⟨hquote, hdouble, htick, hopen, hclose⟩
    simp [Reader.mark, Reader.read, Reader.readCode, ih, not_pair hline, not_pair hblock, hother]
  | case12 b q c rest hlast ih =>
    -- A backslash that ends the text leaves nothing to skip.
    cases rest with
    | nil => simp [Reader.mark, Reader.read]
    | cons d rest =>
      have hc : c ≠ '\\' := fun h => hlast d rest h rfl
      rw [List.zip_cons_cons, ih]
      by_cases hend : c = q ∨ c = '\n' <;> simp [Reader.mark, Reader.read, hc, hend]
  | case16 b c rest hlast htick hpair ih =>
    have hother : c ≠ '`' := htick
    cases rest with
    | nil => simp [Reader.mark, Reader.read]
    | cons d rest =>
      have hc : c ≠ '\\' := fun h => hlast d rest h rfl
      have hopen : ¬ (c = '$' ∧ some d = some '{') := not_pair hpair
      rw [List.zip_cons_cons, ih, Reader.mark.eq_2 _ c]
      simp only [Reader.read, hc, hother, List.head?_cons, hopen, Bool.false_eq_true, if_false]
  | case20 b c rest hpair ih => simp [Reader.mark, Reader.read, ih, not_pair hpair]
  | _ => simp_all [Reader.mark, Reader.read, Reader.readCode]

theorem zip_codeMask (t : Text) : t.zip (codeMask t) = (⟨.code, {}, false⟩ : Reader).mark t :=
  zip_maskFrom .code {} t

/-! ## Letters -/

/-- At least one character, and only such that an identifier can hold. -/
def IsWord (t : Text) : Prop := t ≠ [] ∧ ∀ c ∈ t, isIdentChar c = true

instance (t : Text) : Decidable (IsWord t) :=
  decidable_of_iff (t ≠ [] ∧ t.all isIdentChar = true) (by rw [IsWord, List.all_eq_true])

namespace Reader

variable {r : Reader} {b : Braces} {c : Char}

/-- No letter is a character of the lexical structure. -/
theorem letter_ne (h : isIdentChar c = true) :
    c ≠ '/' ∧ c ≠ '*' ∧ c ≠ '\'' ∧ c ≠ '"' ∧ c ≠ '`' ∧ c ≠ '{' ∧ c ≠ '}' ∧ c ≠ '\n' ∧ c ≠ '.' := by
  refine ⟨?_, ?_, ?_, ?_, ?_, ?_, ?_, ?_, ?_⟩ <;>
    (rintro rfl; revert h; decide)

/-- Letters of code are code and leave the reader where it is. -/
theorem read_letter (h : isIdentChar c = true) (next : Option Char) :
    (⟨.code, b, false⟩ : Reader).read c next = (true, ⟨.code, b, false⟩) := by
  obtain ⟨hslash, _, hquote, hdouble, htick, hopen, hclose, _⟩ := letter_ne h
  simp [read, readCode, *]

/-- A letter that is code is read in code. -/
theorem of_read_letter (h : isIdentChar c = true) {next : Option Char}
    (hcode : (r.read c next).1 = true) : r = ⟨.code, r.braces, false⟩ := by
  obtain ⟨l, b, skips⟩ := r
  have hnl := (letter_ne h).2.2.2.2.2.2.2.1
  cases skips with
  | true => simp [read] at hcode
  | false => cases l <;> simp_all [read]

/-- All that counts of a letter ahead is that it is one. -/
theorem read_before_letter {x y : Char} (hx : isIdentChar x = true) (hy : isIdentChar y = true) :
    r.read c (some x) = r.read c (some y) := by
  have hx := letter_ne hx
  have hy := letter_ne hy
  simp [read, readCode, hx, hy]

theorem mark_word {w : Text} (h : ∀ c ∈ w, isIdentChar c = true) (t : Text) :
    (⟨.code, b, false⟩ : Reader).mark (w ++ t) =
      w.map (·, true) ++ (⟨.code, b, false⟩ : Reader).mark t := by
  induction w with
  | nil => rfl
  | cons c w ih =>
    have hc := h c List.mem_cons_self
    have hw := ih fun d hd => h d (List.mem_cons_of_mem c hd)
    rw [List.cons_append, mark, read_letter hc, hw, List.map_cons, List.cons_append]

end Reader

/-! ## Words in code, spelled differently -/

/-- The second text is the first with some words in code spelled differently. -/
inductive Respelled : Marked → Marked → Prop
  | nil : Respelled [] []
  | same (m : Char × Bool) {ms ms' : Marked} : Respelled ms ms' → Respelled (m :: ms) (m :: ms')
  | word {c : Char} {w : Marked} {v : Text} {ms ms' : Marked} (hc : isIdentChar c = true)
      (hw : ∀ m ∈ w, isIdentChar m.1 = true) (hv : IsWord v) :
      Respelled ms ms' → Respelled ((c, true) :: w ++ ms) (v.map (·, true) ++ ms')

namespace Respelled

/-- What stands ahead is the same for the reader. -/
theorem read_eq {ms ms' : Marked} (h : Respelled ms ms') (r : Reader) (c : Char) :
    r.read c (ms'.map Prod.fst).head? = r.read c (ms.map Prod.fst).head? := by
  cases h with
  | nil => rfl
  | same => rfl
  | word hc _ hv =>
    obtain ⟨d, v, rfl⟩ := List.exists_cons_of_ne_nil hv.1
    exact Reader.read_before_letter (hv.2 d List.mem_cons_self) hc

/-- The marks of the text as it is spelled now are those that were carried over. -/
theorem eq_mark {r : Reader} {t : Text} {ms' : Marked} (h : Respelled (r.mark t) ms') :
    ms' = r.mark (ms'.map Prod.fst) := by
  generalize hms : r.mark t = ms at h
  induction h generalizing r t with
  | nil => rfl
  | same m h ih =>
    cases t with
    | nil => cases hms
    | cons c t =>
      obtain ⟨rfl, rfl⟩ := List.cons.inj hms
      have hahead := h.read_eq r c
      rw [Reader.mark_fst] at hahead
      rw [List.map_cons, Reader.mark, hahead, ← ih rfl]
  | @word c w v ms ms' hc hw hv h ih =>
    cases t with
    | nil => cases hms
    | cons d t =>
      rw [List.cons_append] at hms
      obtain ⟨hd, htail⟩ := List.cons.inj hms
      obtain ⟨rfl, hcode⟩ := Prod.mk.inj hd
      -- The first letter is code, so the reader stands in code and stays there.
      rw [Reader.of_read_letter hc hcode] at htail ⊢
      rw [Reader.read_letter hc] at htail
      have ht : t = w.map Prod.fst ++ ms.map Prod.fst := by
        rw [← List.map_append, ← htail, Reader.mark_fst]
      have hletters : ∀ x ∈ w.map Prod.fst, isIdentChar x = true := by
        intro x hx
        obtain ⟨m, hm, rfl⟩ := List.mem_map.1 hx
        exact hw m hm
      rw [ht, Reader.mark_word hletters] at htail
      have hrest := (List.append_inj htail (by simp)).2
      rw [List.map_append, List.map_map, Reader.mark_word (by simpa using hv.2), ← ih hrest]
      simp [Function.comp_def]

end Respelled

end Uplift.Rename
