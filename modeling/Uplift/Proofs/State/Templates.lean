-- The mask and the splitter side by side. The mask goes into the substitutions of
-- a template, and the splitter reads a template from tick to tick. Where no
-- substitution holds a tick, both have the same commas as code outside all
-- brackets. Elsewhere a template ends too early for the splitter, and it depends
-- on the text behind the tick what becomes of the entry.
import Uplift.Proofs.State.Parts

namespace Uplift.State

open Nesting

/-! ## Running through a text -/

/-- From the spot on the text keeps to the lexis of an entry, and it ends at a spot of `Q`. -/
def Runs (sp : Spot) (t : Text) (Q : Spot → Prop) : Prop :=
  Lexis.entry.accepts sp t = true ∧ Q (sp.after t)

section Runs

variable {sp : Spot} {c : Char} {s t : Text} {P Q : Spot → Prop}

theorem Runs.nil (h : Q sp) : Runs sp [] Q := ⟨rfl, h⟩

theorem Runs.cons (hc : Lexis.entry.allows sp c = true) (h : Runs (sp.next c) t Q) :
    Runs sp (c :: t) Q :=
  ⟨Lexis.accepts_cons.2 ⟨hc, h.1⟩, h.2⟩

theorem Runs.append (h : Runs sp s P) (ht : ∀ sp', P sp' → Runs sp' t Q) : Runs sp (s ++ t) Q := by
  obtain ⟨haccepts, hend⟩ := ht _ h.2
  refine ⟨Lexis.accepts_append.2 ⟨h.1, haccepts⟩, ?_⟩
  rw [Spot.after_append]
  exact hend

end Runs

/-- In code with so many brackets open. -/
def InCode (d : Nat) (sp : Spot) : Prop := sp = .code d ∨ sp = .slash d

/-- In a template, maybe behind a backslash. -/
def InTemplate (d : Nat) (sp : Spot) : Prop := sp = .quoted '`' d ∨ sp = .escaped '`' d

section Pieces

variable {d : Nat} {sp : Spot} {c : Char} {t : Text} {Q : Spot → Prop}

/-- A character that no comment goes on with is read as code. -/
theorem InCode.run (h : InCode d sp) (hslash : c ≠ '/') (hstar : c ≠ '*')
    (hc : Lexis.entry.allowsCode d c = true) (ht : Runs (Spot.ofCode d c) t Q) :
    Runs sp (c :: t) Q := by
  rcases h with rfl | rfl
  · exact Runs.cons hc ht
  · refine Runs.cons ?_ ?_
    · simpa [Lexis.allows, hslash, hstar] using hc
    · simpa [Spot.next, hslash, hstar] using ht

theorem ofCode_quote (hc : isQuote c = true) : Spot.ofCode d c = .quoted c d ∧
    c ≠ '/' ∧ c ≠ '*' ∧ Lexis.entry.allowsCode d c = true := by
  simp only [isQuote, Bool.or_eq_true, beq_iff_eq] at hc
  rcases hc with (rfl | rfl) | rfl <;>
    exact ⟨rfl, by decide, by decide, by simp [Lexis.allowsCode, isCloser, Lexis.entry]⟩

/-- The letters of a quoted text stay in it. -/
theorem runs_letters {quote : Char} {letters : List Letter}
    (h : letters.all (Letter.fits quote) = true) (d : Nat) :
    Runs (.quoted quote d) (letters.flatMap Letter.text) (· = .quoted quote d) := by
  induction letters with
  | nil => exact Runs.nil rfl
  | cons l letters ih =>
    rw [List.all_cons, Bool.and_eq_true] at h
    have hrest := ih h.2
    rw [List.flatMap_cons]
    cases l with
    | plain c =>
      obtain ⟨⟨hquote, hback⟩, _⟩ : (c ≠ quote ∧ c ≠ '\\') ∧ c ≠ '\n' := by
        simpa [Letter.fits] using h.1
      refine Runs.cons rfl ?_
      simpa [Spot.next, hquote, hback] using hrest
    | escaped c => exact Runs.cons rfl (Runs.cons rfl hrest)

theorem runs_quotedText {quote : Char} {letters : List Letter} (hquote : quote = '\'' ∨ quote = '"')
    (h : letters.all (Letter.fits quote) = true) (hsp : InCode d sp) :
    Runs sp (quotedText quote letters) (· = .code d) := by
  obtain ⟨hnext, hslash, hstar, hallows⟩ := ofCode_quote (d := d) (isQuote_of_string hquote)
  refine InCode.run hsp hslash hstar hallows ?_
  rw [hnext]
  refine (runs_letters h d).append ?_
  rintro _ rfl
  refine Runs.cons rfl (Runs.nil ?_)
  rcases hquote with rfl | rfl <;> simp [Spot.next]

/-- A text without ticks stays in the template. -/
theorem runs_tickless (ht : '`' ∉ t) (hsp : InTemplate d sp) : Runs sp t (InTemplate d) := by
  induction t generalizing sp with
  | nil => exact Runs.nil hsp
  | cons c t ih =>
    rw [List.mem_cons, not_or] at ht
    rcases hsp with rfl | rfl
    · refine Runs.cons rfl (ih ht.2 ?_)
      by_cases hback : c = '\\'
      · exact Or.inr (by simp [Spot.next, hback])
      · exact Or.inl (by simp [Spot.next, hback, Ne.symm ht.1])
    · exact Runs.cons rfl (ih ht.2 (Or.inl rfl))

/-- What stands between the ticks of a flat template stays in it. -/
theorem runs_template {x : Dialect} (body : Template) (h : body.isLexical x = true)
    (hflat : body.isFlat = true) (d : Nat) :
    Runs (.quoted '`' d) body.text (· = .quoted '`' d) := by
  cases body with
  | done => exact Runs.nil rfl
  | letter l rest =>
    rw [Template.isLexical_letter] at h
    have hrest := runs_template rest h.2 hflat d
    rw [Template.text]
    cases l with
    | plain c =>
      obtain ⟨⟨htick, hback⟩, _⟩ : (c ≠ '`' ∧ c ≠ '\\') ∧ _ := by
        simpa [Letter.fitsTemplate] using h.1
      refine Runs.cons rfl ?_
      simpa [Spot.next, htick, hback] using hrest
    | escaped c => exact Runs.cons rfl (Runs.cons rfl hrest)
  | substitution inner rest =>
    rw [Template.isLexical_substitution] at h
    simp only [Template.isFlat, Bool.and_eq_true, Bool.not_eq_true', List.contains_eq_mem,
      decide_eq_false_iff_not] at hflat
    have hrest := runs_template rest h.2 hflat.2 d
    refine Runs.cons rfl (Runs.cons rfl ((runs_tickless hflat.1 (Or.inl rfl)).append ?_))
    rintro _ (rfl | rfl)
    · exact Runs.cons rfl hrest
    · exact Runs.cons rfl hrest

theorem runs_ticks {x : Dialect} {body : Template} (h : body.isLexical x = true)
    (hflat : body.isFlat = true) (hsp : InCode d sp) :
    Runs sp ('`' :: body.text ++ ['`']) (· = .code d) := by
  obtain ⟨hnext, hslash, hstar, hallows⟩ := ofCode_quote (d := d) (c := '`') rfl
  refine InCode.run hsp hslash hstar hallows ?_
  rw [hnext]
  refine (runs_template body h hflat d).append ?_
  rintro _ rfl
  exact Runs.cons rfl (Runs.nil rfl)

/-- A group comes back to where it was opened. -/
theorem runs_group (bracket : Bracket) {inner : Text}
    (hinner : Runs (.code (d + 1)) inner (InCode (d + 1))) (hsp : InCode d sp) :
    Runs sp (bracket.opener :: inner ++ [bracket.closer]) (· = .code d) := by
  have hopen : Spot.ofCode d bracket.opener = .code (d + 1) ∧ bracket.opener ≠ '/' ∧
      bracket.opener ≠ '*' ∧ Lexis.entry.allowsCode d bracket.opener = true := by
    cases bracket <;>
      exact ⟨rfl, by decide, by decide,
        by simp [Lexis.allowsCode, Bracket.opener, isCloser, Lexis.entry]⟩
  have hclose : Spot.ofCode (d + 1) bracket.closer = .code d ∧ bracket.closer ≠ '/' ∧
      bracket.closer ≠ '*' := by
    cases bracket <;> exact ⟨rfl, by decide, by decide⟩
  obtain ⟨hnext, hslash, hstar, hallows⟩ := hopen
  refine InCode.run hsp hslash hstar hallows ?_
  rw [hnext]
  refine hinner.append fun sp' hsp' => ?_
  refine InCode.run hsp' hclose.2.1 hclose.2.2 rfl ?_
  exact Runs.nil hclose.1

/-- A plain character opens and closes nothing. -/
theorem not_structural (hc : Dialect.literal.allows c = true) :
    isQuote c = false ∧ isOpener c = false ∧ isCloser c = false := by
  simp only [Dialect.allows, Dialect.literal, Bool.false_or, Bool.and_eq_true, Bool.not_eq_true',
    List.contains_eq_mem, decide_eq_false_iff_not, List.mem_cons, List.not_mem_nil, or_false,
    not_or] at hc
  simp [isQuote, isOpener, isCloser, hc]

/-- A plain character of code stays in code, and a slash that it may be starts no comment. -/
theorem InCode.char (hsp : InCode d sp)
    (hpair : sp = .slash d → opensComment '/' (c :: t) = false)
    (hc : Dialect.literal.allows c = true) (ht : opensComment c t = false) :
    InCode d (sp.next c) ∧ (sp.next c = .slash d → opensComment '/' t = false) ∧
      Lexis.entry.allows sp c = Lexis.entry.allowsCode d c := by
  have hcode : Spot.ofCode d c = if c = '/' then .slash d else .code d := by
    simp [Spot.ofCode, not_structural hc]
  have hofCode : InCode d (Spot.ofCode d c) ∧
      (Spot.ofCode d c = .slash d → opensComment '/' t = false) := by
    rw [hcode]
    by_cases hslash : c = '/'
    · rw [if_pos hslash]
      exact ⟨Or.inr rfl, fun _ => hslash ▸ ht⟩
    · rw [if_neg hslash]
      exact ⟨Or.inl rfl, fun h => by cases h⟩
  rcases hsp with rfl | rfl
  · exact ⟨hofCode.1, hofCode.2, rfl⟩
  · have hnot : c ≠ '/' ∧ c ≠ '*' := by simpa [opensComment] using hpair rfl
    have hnext : (Spot.slash d).next c = Spot.ofCode d c := by simp [Spot.next, hnot]
    rw [hnext]
    exact ⟨hofCode.1, hofCode.2, by simp [Lexis.allows, hnot]⟩

end Pieces

/-! ## Flat trees -/

/-- Inside brackets a flat tree without comments stays in code. Behind a slash it does so if no
comment starts there. -/
theorem runs_code (code : Code) (h : code.isLexical .literal = true) (hflat : code.isFlat = true)
    {d : Nat} {sp : Spot} (hd : d ≠ 0) (hsp : InCode d sp)
    (hpair : sp = .slash d → opensComment '/' code.text = false) :
    Runs sp code.text (InCode d) := by
  cases code with
  | done => exact Runs.nil hsp
  | char c rest =>
    obtain ⟨hc, hrest, h⟩ := Code.isLexical_char.1 h
    obtain ⟨hnext, hnextpair, hallows⟩ := InCode.char hsp hpair hc hrest
    have hfree : Lexis.entry.allowsCode d c = true := by simp [Lexis.allowsCode, hd]
    exact Runs.cons (hallows.trans hfree) (runs_code rest h hflat hd hnext hnextpair)
  | string quote letters rest =>
    obtain ⟨hquote, hletters, h⟩ := Code.isLexical_string.1 h
    refine (runs_quotedText hquote hletters hsp).append ?_
    rintro _ rfl
    exact runs_code rest h hflat hd (Or.inl rfl) (by simp)
  | template body rest =>
    rw [Code.isLexical_template] at h
    simp only [Code.isFlat, Bool.and_eq_true] at hflat
    have hticks := (runs_ticks h.1 hflat.1 hsp).append (t := rest.text) (Q := InCode d) (by
      rintro _ rfl
      exact runs_code rest h.2 hflat.2 hd (Or.inl rfl) (by simp))
    simpa [Code.text] using hticks
  | lineComment body rest => exact absurd (Code.isLexical_lineComment.1 h).1 Bool.false_ne_true
  | blockComment body rest => exact absurd (Code.isLexical_blockComment.1 h).1 Bool.false_ne_true
  | group bracket inner rest =>
    rw [Code.isLexical_group] at h
    simp only [Code.isFlat, Bool.and_eq_true] at hflat
    have hinner := runs_code inner h.1 hflat.1 (Nat.succ_ne_zero d) (Or.inl rfl) (by simp)
    have hgroup := (runs_group bracket hinner hsp).append (t := rest.text) (Q := InCode d) (by
      rintro _ rfl
      exact runs_code rest h.2 hflat.2 hd (Or.inl rfl) (by simp))
    simpa [Code.text] using hgroup

/-- Each part stays in code. The first does so behind a slash as well, if no comment starts with
the slash and `text`. -/
structure PartsRun (es : List Text) (text : Text) : Prop where
  tail : ∀ e ∈ es.tail, Runs (.code 0) e (InCode 0)
  head : ∀ e, es.head? = some e → ∀ sp, InCode 0 sp →
    (sp = .slash 0 → opensComment '/' text = false) → Runs sp e (InCode 0)

namespace PartsRun

variable {es : List Text} {text : Text}

theorem code (h : PartsRun es text) {e : Text} (he : es.head? = some e) :
    Runs (.code 0) e (InCode 0) :=
  h.head e he (.code 0) (Or.inl rfl) (by simp)

theorem forall_mem (h : PartsRun es text) : ∀ e ∈ es, Runs (.code 0) e (InCode 0) := by
  intro e he
  cases es with
  | nil => cases he
  | cons x es =>
    rcases List.mem_cons.1 he with rfl | he
    · exact h.code rfl
    · exact h.tail e he

/-- A comma before the parts. -/
theorem comma (h : PartsRun es text) (text' : Text) : PartsRun ([] :: es) text' := by
  refine ⟨h.forall_mem, ?_⟩
  rintro _ ⟨⟩ sp hsp _
  exact Runs.nil hsp

/-- A piece before the first part that comes back to code. -/
theorem front (h : PartsRun es text) {piece : Text}
    (hpiece : ∀ sp, InCode 0 sp → Runs sp piece (· = .code 0)) (text' : Text) :
    PartsRun (es.modifyHead (piece ++ ·)) text' := by
  refine ⟨by rw [List.tail_modifyHead]; exact h.tail, ?_⟩
  intro e he sp hsp _
  rw [List.head?_modifyHead] at he
  obtain ⟨x, hx, rfl⟩ := Option.map_eq_some_iff.1 he
  refine (hpiece sp hsp).append ?_
  rintro _ rfl
  exact h.code hx

end PartsRun

/-- Outside brackets each part of a flat tree without comments stays in code. -/
theorem partsRun (code : Code) (h : code.isLexical .literal = true) (hflat : code.isFlat = true) :
    PartsRun (treeParts code) code.text := by
  cases code with
  | done =>
    simp only [treeParts, Code.cells, List.map_nil, slices_nil]
    refine ⟨by simp, ?_⟩
    rintro _ ⟨⟩ sp hsp _
    exact Runs.nil hsp
  | char c rest =>
    obtain ⟨hc, hrest, h⟩ := Code.isLexical_char.1 h
    have ih := partsRun rest h hflat
    by_cases hcomma : c = ','
    · rw [hcomma, treeParts_comma]
      exact ih.comma _
    · rw [treeParts_char hcomma]
      refine ⟨by rw [List.tail_modifyHead]; exact ih.tail, ?_⟩
      intro e he sp hsp hpair
      rw [List.head?_modifyHead] at he
      obtain ⟨x, hx, rfl⟩ := Option.map_eq_some_iff.1 he
      obtain ⟨hnext, hnextpair, hallows⟩ := InCode.char hsp hpair hc hrest
      have hfree : Lexis.entry.allowsCode 0 c = true := by
        simp [Lexis.allowsCode, Lexis.entry, not_structural hc, hcomma]
      exact Runs.cons (hallows.trans hfree) (ih.head x hx _ hnext hnextpair)
  | string quote letters rest =>
    obtain ⟨hquote, hletters, h⟩ := Code.isLexical_string.1 h
    rw [treeParts_string]
    exact (partsRun rest h hflat).front (fun sp hsp => runs_quotedText hquote hletters hsp) _
  | template body rest =>
    rw [Code.isLexical_template] at h
    simp only [Code.isFlat, Bool.and_eq_true] at hflat
    rw [treeParts_template]
    exact (partsRun rest h.2 hflat.2).front (fun sp hsp => runs_ticks h.1 hflat.1 hsp) _
  | lineComment body rest => exact absurd (Code.isLexical_lineComment.1 h).1 Bool.false_ne_true
  | blockComment body rest => exact absurd (Code.isLexical_blockComment.1 h).1 Bool.false_ne_true
  | group bracket inner rest =>
    rw [Code.isLexical_group] at h
    simp only [Code.isFlat, Bool.and_eq_true] at hflat
    have hinner := runs_code inner h.1 hflat.1 Nat.one_ne_zero (Or.inl rfl) (by simp)
    rw [treeParts_group]
    exact (partsRun rest h.2 hflat.2).front (fun sp hsp => runs_group bracket hinner hsp) _

/-- Each part of a flat tree without comments is closed in the lexis of an entry. -/
theorem closes_treeParts {code : Code} (h : code.isLexical .literal = true)
    (hflat : code.isFlat = true) : ∀ e ∈ treeParts code, Lexis.entry.closes e = true := by
  intro e he
  obtain ⟨haccepts, hend⟩ := (partsRun code h hflat).forall_mem e he
  exact Lexis.closes_iff.2 ⟨haccepts, Spot.isClosed_iff.2 hend⟩

/-! ## The law -/

theorem cutAt_topCommas_iff {code : Code} (h : code.isLexical .literal = true) :
    CutAt code.text (topCommas code) ↔ (∀ e ∈ treeParts code, ReadWhole e) ∧
      ∀ e ∈ (treeParts code).dropLast, (scanEntries e).spot.isClosed = true := by
  have htext : ((code.cells 0).map commaOf).map Prod.fst = code.text := by
    rw [List.map_map]
    exact code.map_char_cells 0
  have hmarks : ((code.cells 0).map commaOf).map Prod.snd = topCommas code := by
    rw [topCommas_eq h, List.map_map]
    rfl
  have hiff := cutAt_iff eq_comma_of_mem_commaOf (startsEntry_treeParts code h)
  rwa [htext, hmarks] at hiff

theorem cutAt_topCommas_of_isFlat {code : Code} (h : code.isLexical .literal = true)
    (hflat : code.isFlat = true) : CutAt code.text (topCommas code) := by
  have hcloses := closes_treeParts h hflat
  refine (cutAt_topCommas_iff h).2 ⟨fun e he => readWhole_of_closes (hcloses e he), ?_⟩
  intro e he
  rw [scanEntries, Splitter.foldl_spot]
  exact (Lexis.closes_iff.1 (hcloses e (List.dropLast_subset _ he))).2

/-- A nested text without comments is cut at the commas that the mask has as code outside all
brackets and substitutions, and into what stands between them, exactly when each part by itself
is read as one entry and leaves nothing open for the next. It is, if no substitution holds a
tick. -/
theorem the_lexers_agree_exactly_when_each_part_is_read_whole (code : Code)
    (h : code.isLexical .literal = true) :
    (CutAt code.text (topCommas code) ↔ (∀ e ∈ partsOf code, ReadWhole e) ∧
        ∀ e ∈ (partsOf code).dropLast, (scanEntries e).spot.isClosed = true) ∧
      (code.isFlat = true → CutAt code.text (topCommas code)) := by
  rw [partsOf_eq h]
  exact ⟨cutAt_topCommas_iff h, cutAt_topCommas_of_isFlat h⟩

/-- An entry whose value is a template with another one in its substitution, and an entry behind
it. -/
def nestedComma : Code :=
  .chars "a: ".toList
    (.template
      (.chars "x ".toList
        (.substitution (.template (.chars "p, q".toList .done) .done) (.chars " y".toList .done)))
      (.chars ", b: 1".toList .done))

/-- The same with an address in the inner template. -/
def nestedAddress : Code :=
  .chars "a: ".toList
    (.template (.substitution (.template (.chars "http://x".toList .done) .done) .done) .done)

/-- Substitutions and brackets without ticks. -/
def flatTemplate : Code :=
  .chars "t: ".toList
    (.template
      (.substitution (.chars "a".toList .done)
        (.chars ", ".toList (.substitution (.chars "b".toList .done) .done)))
      (.chars ", u: ".toList (.group .square (.chars "1, 2".toList .done) .done)))

/-- The inner template is taken for code: a comma in it cuts the entry apart, and an address in
it becomes a comment. -/
theorem nested_templates_are_taken_apart :
    nestedComma.isLexical .literal = true ∧
      nestedComma.text = "a: `x $\x7b`p, q`\x7d y`, b: 1".toList ∧
      ¬ CutAt nestedComma.text (topCommas nestedComma) ∧
      partsOf nestedComma = ["a: `x $\x7b`p, q`\x7d y`".toList, " b: 1".toList] ∧
      splitEntries nestedComma.text =
        [⟨"a: `x $\x7b`p".toList, none⟩, ⟨"q`\x7d y`".toList, none⟩, ⟨"b: 1".toList, none⟩] ∧
      nestedAddress.isLexical .literal = true ∧
      nestedAddress.text = "a: `$\x7b`http://x`\x7d`".toList ∧
      ¬ CutAt nestedAddress.text (topCommas nestedAddress) ∧
      splitEntries nestedAddress.text =
        [⟨"a: `$\x7b`http:".toList, some "//x`\x7d`".toList⟩] ∧
      flatTemplate.isLexical .literal = true ∧ flatTemplate.isFlat = true ∧
      CutAt flatTemplate.text (topCommas flatTemplate) ∧
      splitEntries flatTemplate.text =
        [⟨"t: `$\x7ba\x7d, $\x7bb\x7d`".toList, none⟩, ⟨"u: [1, 2]".toList, none⟩] := by
  have hcomma : nestedComma.isLexical .literal = true := by decide +kernel
  have haddress : nestedAddress.isLexical .literal = true := by decide +kernel
  have hflat : flatTemplate.isLexical .literal = true ∧ flatTemplate.isFlat = true := by
    decide +kernel
  have hparts : ¬ ∀ e ∈ partsOf nestedComma, splitEntries e = whole e := by decide +kernel
  have hpart : ¬ ∀ e ∈ partsOf nestedAddress, splitEntries e = whole e := by decide +kernel
  refine ⟨hcomma, by decide +kernel, ?_, by decide +kernel, by decide +kernel, haddress,
    by decide +kernel, ?_, by decide +kernel, hflat.1, hflat.2, ?_, by decide +kernel⟩
  · intro hcut
    have hwhole :=
      (the_lexers_agree_exactly_when_each_part_is_read_whole nestedComma hcomma).1.1 hcut
    exact hparts fun e he => (hwhole.1 e he).entries
  · intro hcut
    have hwhole :=
      (the_lexers_agree_exactly_when_each_part_is_read_whole nestedAddress haddress).1.1 hcut
    exact hpart fun e he => (hwhole.1 e he).entries
  · exact (the_lexers_agree_exactly_when_each_part_is_read_whole flatTemplate hflat.1).2 hflat.2

end Uplift.State
