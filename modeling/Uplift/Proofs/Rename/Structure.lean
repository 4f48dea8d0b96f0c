-- The mask of a nested text. All braces are counted in one place, those of
-- substitutions with those of groups, and of each open substitution the count it
-- was opened at is kept. The innermost was never opened at more braces than are
-- open now, so the brace that brings the count back to it is its own. A piece of
-- code, however it is nested, then leaves the reader where it found it.
import Uplift.Proofs.Nesting.Tree
import Uplift.Proofs.Rename.Words
import Uplift.Proofs.State.Lexis

namespace Uplift.Rename

open Nesting

/-! ## Braces -/

namespace Braces

/-- The innermost substitution was opened at no more braces than are open. -/
def Bounded (b : Braces) : Prop := ∀ n, b.substitutions.head? = some n → n ≤ b.depth

variable {b : Braces}

theorem Bounded.enter (h : b.Bounded) : b.enter.Bounded := by
  intro n hn
  exact Nat.le_succ_of_le (h n hn)

theorem bounded_enterSubstitution (b : Braces) : b.enterSubstitution.Bounded := by
  intro n hn
  obtain rfl : b.depth + 1 = n := Option.some.inj hn
  exact Nat.le_refl _

@[simp]
theorem leave_enter (b : Braces) : b.enter.leave = b := rfl

@[simp]
theorem leaveSubstitution_enterSubstitution (b : Braces) :
    b.enterSubstitution.leaveSubstitution = b := rfl

@[simp]
theorem closesSubstitution_enterSubstitution (b : Braces) :
    b.enterSubstitution.closesSubstitution = true := by
  simp [closesSubstitution, enterSubstitution]

/-- A brace that was opened behind a substitution does not close it. -/
theorem Bounded.closesSubstitution_enter (h : b.Bounded) : b.enter.closesSubstitution = false := by
  unfold closesSubstitution
  rw [beq_eq_false_iff_ne]
  intro hn
  have hle := h _ hn
  simp only [Braces.enter] at hle
  omega

end Braces

/-! ## Pieces -/

/-- Characters that are not code. -/
def masked (t : Text) : Marked := t.map (·, false)

/-- What a tree says of one character. -/
def markOf (k : Cell) : Char × Bool := (k.char, k.code)

@[simp]
theorem map_markOf_inert (depth : Nat) (t : Text) :
    (inert depth t).map markOf = masked t := by
  simp [inert, masked, markOf, Function.comp_def]

namespace Reader

variable {b : Braces}

theorem mark_char {x : Dialect} {c : Char} {t : Text} (hc : x.allows c = true)
    (hpair : opensComment c t = false) :
    (⟨.code, b, false⟩ : Reader).mark (c :: t) =
      (c, true) :: (⟨.code, b, false⟩ : Reader).mark t := by
  have hother : c ≠ '\'' ∧ c ≠ '"' ∧ c ≠ '`' ∧ c ≠ '{' ∧ c ≠ '}' := by
    simpa [Dialect.allows] using (Bool.and_eq_true_iff.1 hc).1
  have hslash : c = '/' → t.head? ≠ some '/' ∧ t.head? ≠ some '*' := by
    intro h
    simpa [opensComment, h] using hpair
  have hread : (⟨.code, b, false⟩ : Reader).read c t.head? = (true, ⟨.code, b, false⟩) := by
    simp only [read, readCode, hother]
    grind
  rw [mark, hread]

/-- The letters of a quoted text leave the reader in it. -/
theorem mark_letters {quote : Char} {letters : List Letter}
    (h : letters.all (Letter.fits quote) = true) (t : Text) :
    (⟨.quoted quote, b, false⟩ : Reader).mark (letters.flatMap Letter.text ++ t) =
      masked (letters.flatMap Letter.text) ++ (⟨.quoted quote, b, false⟩ : Reader).mark t := by
  induction letters with
  | nil => rfl
  | cons l letters ih =>
    rw [List.all_cons, Bool.and_eq_true] at h
    have hrest := ih h.2
    cases l with
    | plain c =>
      obtain ⟨⟨hquote, hback⟩, hnl⟩ : (c ≠ quote ∧ c ≠ '\\') ∧ c ≠ '\n' := by
        simpa [Letter.fits] using h.1
      simp [Letter.text, mark, read, hquote, hback, hnl, hrest, masked]
    | escaped c => simp [Letter.text, mark, read, hrest, masked]

/-- A quoted text is not code, and code goes on behind it. -/
theorem mark_quotedText {quote : Char} {letters : List Letter}
    (hquote : quote = '\'' ∨ quote = '"') (h : letters.all (Letter.fits quote) = true) (t : Text) :
    (⟨.code, b, false⟩ : Reader).mark (quotedText quote letters ++ t) =
      masked (quotedText quote letters) ++ (⟨.code, b, false⟩ : Reader).mark t := by
  have hopen : ∀ next, (⟨.code, b, false⟩ : Reader).read quote next =
      (false, ⟨.quoted quote, b, false⟩) := by
    intro next
    rcases hquote with rfl | rfl <;> simp [read, readCode]
  have hclose : ∀ next, (⟨.quoted quote, b, false⟩ : Reader).read quote next =
      (false, ⟨.code, b, false⟩) := by
    intro next
    rcases hquote with rfl | rfl <;> simp [read]
  rw [quotedText, List.append_assoc, List.cons_append, mark, hopen, mark_letters h,
    List.singleton_append, mark, hclose]
  simp [masked]

/-- A letter of a template leaves the reader in it. -/
theorem mark_letter {l : Letter} {t : Text} (h : l.fitsTemplate t = true) :
    (⟨.template, b, false⟩ : Reader).mark (l.text ++ t) =
      masked l.text ++ (⟨.template, b, false⟩ : Reader).mark t := by
  cases l with
  | plain c =>
    obtain ⟨⟨htick, hback⟩, hopen⟩ :
        (c ≠ '`' ∧ c ≠ '\\') ∧ ¬ (c = '$' ∧ t.head? = some '{') := by
      simpa [Letter.fitsTemplate, imp_iff_not_or] using h
    have hread : (⟨.template, b, false⟩ : Reader).read c t.head? =
        (false, ⟨.template, b, false⟩) := by
      simp only [read, htick, hback, hopen, if_false, Bool.false_eq_true]
    simp only [Letter.text, masked, List.singleton_append, List.map_cons, List.map_nil, mark, hread]
  | escaped c => simp [Letter.text, mark, read, masked]

/-- A line comment is not code, and the end of its line is. -/
theorem mark_lineText {body : Text} (h : '\n' ∉ body) (t : Text) :
    (⟨.code, b, false⟩ : Reader).mark (lineText body ++ '\n' :: t) =
      masked (lineText body) ++ ('\n', true) :: (⟨.code, b, false⟩ : Reader).mark t := by
  have hbody : (⟨.lineComment, b, false⟩ : Reader).mark (body ++ '\n' :: t) =
      masked body ++ ('\n', true) :: (⟨.code, b, false⟩ : Reader).mark t := by
    induction body with
    | nil => simp [mark, read, masked]
    | cons c body ih =>
      rw [List.mem_cons, not_or] at h
      simp [mark, read, masked, Ne.symm h.1, ih h.2]
  simp [lineText, mark, read, readCode, hbody, masked]

/-- A block comment is not code, and code goes on behind it. -/
theorem mark_blockText {body : Text} (h : ¬ ['*', '/'] <:+: body) (t : Text) :
    (⟨.code, b, false⟩ : Reader).mark (blockText body ++ t) =
      masked (blockText body) ++ (⟨.code, b, false⟩ : Reader).mark t := by
  have hbody : (⟨.blockComment, b, false⟩ : Reader).mark (body ++ '*' :: '/' :: t) =
      masked (body ++ ['*', '/']) ++ (⟨.code, b, false⟩ : Reader).mark t := by
    induction body with
    | nil => simp [mark, read, masked]
    | cons c body ih =>
      obtain ⟨hrest, hstar⟩ := State.noEnd_cons h
      have hon : ¬ (c = '*' ∧ (body ++ '*' :: '/' :: t).head? = some '/') := by
        rintro ⟨rfl, hhead⟩
        cases body with
        | nil => simp at hhead
        | cons d body => exact hstar rfl hhead
      have hread : (⟨.blockComment, b, false⟩ : Reader).read c
          (body ++ '*' :: '/' :: t).head? = (false, ⟨.blockComment, b, false⟩) := by
        simp only [read, hon, if_false, Bool.false_eq_true]
      rw [List.cons_append, mark, hread, ih hrest]
      rfl
  simp [blockText, mark, read, readCode, hbody, masked]

end Reader

/-! ## Trees -/

theorem fitsTemplate_append {l : Letter} {s : Text} (h : l.fitsTemplate s = true) (t : Text) :
    l.fitsTemplate (s ++ '`' :: t) = true := by
  cases l with
  | plain c =>
    cases s with
    | nil => simpa [Letter.fitsTemplate] using h
    | cons d s => exact h
  | escaped c => rfl

mutual

/-- Code is marked as its tree says, and leaves the reader where it found it. The text behind it
may not make a comment of a slash that it ends with. -/
theorem mark_code {x : Dialect} {b : Braces} (hb : b.Bounded) (depth : Nat) (code : Code)
    (h : code.isLexical x = true) {t : Text} (ht : opensComment '/' t = false) :
    (⟨.code, b, false⟩ : Reader).mark (code.text ++ t) =
      (code.cells depth).map markOf ++ (⟨.code, b, false⟩ : Reader).mark t := by
  cases code with
  | done => rfl
  | char c rest =>
    obtain ⟨hc, hpair, hrest⟩ := Code.isLexical_char.1 h
    rw [Code.text, List.cons_append, Reader.mark_char hc (opensComment_append hpair ht),
      mark_code hb depth rest hrest ht]
    rfl
  | string quote letters rest =>
    obtain ⟨hquote, hletters, hrest⟩ := Code.isLexical_string.1 h
    rw [Code.text, List.append_assoc, Reader.mark_quotedText hquote hletters,
      mark_code hb depth rest hrest ht]
    simp [Code.cells]
  | template body rest =>
    obtain ⟨hbody, hrest⟩ := Code.isLexical_template.1 h
    have hread : (⟨.code, b, false⟩ : Reader).mark ('`' :: (body.text ++ '`' :: (rest.text ++ t))) =
        ('`', false) :: (⟨.template, b, false⟩ : Reader).mark
          (body.text ++ '`' :: (rest.text ++ t)) := by
      simp [Reader.mark, Reader.read, Reader.readCode]
    rw [Code.text, List.cons_append, List.cons_append, List.append_assoc, List.cons_append, hread,
      mark_template hb depth body hbody, mark_code hb depth rest hrest ht]
    simp [Code.cells, markOf]
  | lineComment body rest =>
    obtain ⟨_, hbody, hrest⟩ := Code.isLexical_lineComment.1 h
    rw [Code.text, List.append_assoc, List.cons_append, Reader.mark_lineText hbody,
      mark_code hb depth rest hrest ht]
    simp [Code.cells, markOf]
  | blockComment body rest =>
    obtain ⟨_, hbody, hrest⟩ := Code.isLexical_blockComment.1 h
    rw [Code.text, List.append_assoc, Reader.mark_blockText hbody,
      mark_code hb depth rest hrest ht]
    simp [Code.cells]
  | group bracket inner rest =>
    obtain ⟨hin, hout⟩ := Code.isLexical_group.1 h
    have hrest := mark_code hb depth rest hout ht
    rw [Code.text, List.cons_append, List.cons_append, List.append_assoc, List.cons_append]
    cases bracket with
    | brace =>
      -- The brace that closes the group does not close a substitution around it.
      have hinner := mark_code hb.enter (depth + 1) inner hin (t := '}' :: (rest.text ++ t)) rfl
      simp [Bracket.opener, Bracket.closer, Reader.mark, Reader.read, Reader.readCode, hinner,
        hb.closesSubstitution_enter, hrest, Code.cells, markOf]
    | square =>
      have hinner := mark_code hb (depth + 1) inner hin (t := ']' :: (rest.text ++ t)) rfl
      simp [Bracket.opener, Bracket.closer, Reader.mark, Reader.read, Reader.readCode, hinner,
        hrest, Code.cells, markOf]
    | round =>
      have hinner := mark_code hb (depth + 1) inner hin (t := ')' :: (rest.text ++ t)) rfl
      simp [Bracket.opener, Bracket.closer, Reader.mark, Reader.read, Reader.readCode, hinner,
        hrest, Code.cells, markOf]

/-- A template is marked as its tree says, up to the tick that ends it. -/
theorem mark_template {x : Dialect} {b : Braces} (hb : b.Bounded) (depth : Nat)
    (body : Template) (h : body.isLexical x = true) {t : Text} :
    (⟨.template, b, false⟩ : Reader).mark (body.text ++ '`' :: t) =
      (body.cells depth).map markOf ++ ('`', false) :: (⟨.code, b, false⟩ : Reader).mark t := by
  cases body with
  | done => simp [Template.text, Template.cells, Reader.mark, Reader.read]
  | letter l rest =>
    obtain ⟨hl, hrest⟩ := Template.isLexical_letter.1 h
    rw [Template.text, List.append_assoc, Reader.mark_letter (fitsTemplate_append hl t),
      mark_template hb depth rest hrest]
    simp [Template.cells]
  | substitution inner rest =>
    obtain ⟨hin, hout⟩ := Template.isLexical_substitution.1 h
    have hinner := mark_code b.bounded_enterSubstitution (depth + 1) inner hin
      (t := '}' :: (rest.text ++ '`' :: t)) rfl
    have hrest := mark_template hb depth rest hout (t := t)
    simp [Template.text, Reader.mark, Reader.read, Reader.readCode, hinner, hrest, Template.cells,
      markOf, masked]

end

/-- The marks of a nested text are those of its tree. -/
theorem zip_codeMask_text {x : Dialect} {code : Code} (h : code.isLexical x = true) (depth : Nat) :
    code.text.zip (codeMask code.text) = (code.cells depth).map markOf := by
  have hstart : Braces.Bounded {} := by
    intro n hn
    cases hn
  have hmark := mark_code hstart depth code h (t := []) rfl
  rw [List.append_nil] at hmark
  rw [zip_codeMask, hmark, Reader.mark, List.append_nil]

theorem codeMask_text {x : Dialect} {code : Code} (h : code.isLexical x = true) (depth : Nat) :
    codeMask code.text = (code.cells depth).map (·.code) := by
  rw [← zip_codeMask_snd, zip_codeMask_text h depth, List.map_map]
  rfl

/-! ## The law -/

/-- The mask recognises how a text is nested: what is code, with the braces of groups and the
newlines that end comments, and nothing else, however deep it stands in templates. -/
theorem the_mask_follows_the_nesting (code : Code) (h : code.isLexical .free = true) :
    codeMask code.text = (code.cells 0).map (·.code) ∧
      byteMask code.text = (code.cells 0).flatMap fun k =>
        List.replicate k.char.utf8Size k.code := by
  refine ⟨codeMask_text h 0, ?_⟩
  unfold byteMask
  rw [zip_codeMask_text h 0, List.flatMap_map]
  rfl

/-- A template whose substitution holds a group in braces with a template in it, whose
substitution holds a quoted quote; and comments with braces behind it. -/
def nestedTemplates : Code :=
  .template
    (.chars "a ".toList
      (.substitution
        (.chars " ".toList
          (.group .brace
            (.chars "x: ".toList
              (.template
                (.substitution (.string '\'' [.escaped '\''] .done) (.chars "\x7d".toList .done))
                .done))
            (.chars ".x ".toList .done)))
        (.chars " b".toList .done)))
    (.lineComment " \x7b".toList (.blockComment " \x7d ".toList (.chars "+ c".toList .done)))

theorem nestedTemplates_are_masked :
    nestedTemplates.isLexical .free = true ∧
      nestedTemplates.text =
        ["`a $\x7b \x7bx: `$\x7b'\\''\x7d\x7d`\x7d.x \x7d b`", "// \x7b\n/* \x7d */+ c"].flatMap
          String.toList ∧
      codeMask nestedTemplates.text = (nestedTemplates.cells 0).map (·.code) ∧
      byteMask nestedTemplates.text = ((nestedTemplates.cells 0).flatMap fun k =>
        List.replicate k.char.utf8Size k.code) ∧
      ((nestedTemplates.cells 0).filter (·.code)).map (·.char) =
        " \x7bx: \x7d.x \n+ c".toList := by
  have hlexical : nestedTemplates.isLexical .free = true := by decide +kernel
  obtain ⟨hmask, hbytes⟩ := the_mask_follows_the_nesting nestedTemplates hlexical
  exact ⟨hlexical, by decide +kernel, hmask, hbytes, by decide +kernel⟩

end Uplift.Rename
