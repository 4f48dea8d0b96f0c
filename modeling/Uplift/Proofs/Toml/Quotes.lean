-- Strings of a document, read back. Whatever quotes a string is written in, the
-- reader gives its characters and stops behind the closing quotes, as long as no
-- further quote follows them.
import Mathlib.Tactic.SplitIfs
import Uplift.Toml.Printer

namespace Uplift.Toml

/-! ## Characters between double quotes -/

/-- The ways to write a character between double quotes; in a block a newline may stand for
itself. -/
inductive Spells (block : Bool) : Char → Text → Prop
  | plain {c : Char} : isPlain c = true → c ≠ '"' → c ≠ '\\' → Spells block c [c]
  | letter {c x : Char} : escaped? x = some c → Spells block c ['\\', x]
  | code {c a b : Char} : codePoint? ['0', '0', a, b] = some c →
      Spells block c ['\\', 'u', '0', '0', a, b]
  | newline : block = true → Spells block '\n' ['\n']

theorem codePoint?_hexPair :
    ∀ n < 128, codePoint? (['0', '0'] ++ hexPair n) = some (Char.ofNat n) := by
  decide +kernel

theorem toNat_lt_of_not_plain {c : Char} (h : isPlain c = false) : c.toNat < 128 := by
  simp only [isPlain, Bool.or_eq_false_iff, Bool.and_eq_false_iff, decide_eq_false_iff_not,
    bne_eq_false_iff_eq] at h
  omega

theorem isPlain_ne_newline {c : Char} (h : isPlain c = true) : c ≠ '\n' := by
  rintro rfl
  simp [isPlain] at h

theorem isPlain_ne_return {c : Char} (h : isPlain c = true) : c ≠ '\r' := by
  rintro rfl
  simp [isPlain] at h

theorem escapeChar_spells {c : Char} (block : Bool) (hquote : c ≠ '"') :
    Spells block c (escapeChar block c) := by
  unfold escapeChar
  split
  · exact .letter rfl
  · split
    · rename_i hblock
      exact .newline hblock
    · exact .letter rfl
  · exact .letter rfl
  · exact .letter rfl
  · rename_i hback
    split
    · rename_i hcode
      have hc : c = '\x08' := Char.toNat_inj.1 hcode
      exact .letter (by rw [hc]; rfl)
    · split
      · rename_i hcode
        have hc : c = '\x0c' := Char.toNat_inj.1 hcode
        exact .letter (by rw [hc]; rfl)
      · split
        · rename_i hplain
          exact .plain hplain hquote hback
        · rename_i hplain
          have hlt := toNat_lt_of_not_plain (by simpa using hplain)
          have hcode := codePoint?_hexPair c.toNat hlt
          rw [Char.ofNat_toNat] at hcode
          exact .code hcode

theorem Spells.head {block : Bool} {c : Char} {t : Text} (h : Spells block c t) (rest : Text) :
    (t ++ rest).head? ≠ some '"' := by
  cases h with
  | plain _ hquote _ => simpa using hquote
  | letter _ => simp
  | code _ => simp
  | newline _ => simp

theorem readQuoted_spells {c : Char} {t : Text} (h : Spells false c t) (done rest : Text) :
    readQuoted done (t ++ rest) = readQuoted (c :: done) rest := by
  cases h with
  | plain hplain hquote hback =>
    simp [readQuoted, hplain, hback]
  | @letter _ x hx =>
    have hu : x ≠ 'u' := by rintro rfl; simp [escaped?] at hx
    have hU : x ≠ 'U' := by rintro rfl; simp [escaped?] at hx
    simp [readQuoted, hu, hU, hx]
  | code hcode => simp [readQuoted, hcode]
  | newline hblock => cases hblock

theorem readQuotedBlock_spells {c : Char} {t : Text} (h : Spells true c t) (done rest : Text) :
    readQuotedBlock done (t ++ rest) = readQuotedBlock (c :: done) rest := by
  cases h with
  | plain hplain hquote hback =>
    rw [List.singleton_append, readQuotedBlock.eq_def]
    split <;> simp_all [isPlain]
  | @letter _ x hx =>
    have hu : x ≠ 'u' := by rintro rfl; simp [escaped?] at hx
    have hU : x ≠ 'U' := by rintro rfl; simp [escaped?] at hx
    simp [readQuotedBlock, hu, hU, hx]
  | code hcode => simp [readQuotedBlock, hcode]
  | newline _ => simp [readQuotedBlock]

/-! ## Double quotes -/

theorem escapeFrom_cons {c : Char} (block : Bool) (quotes : Nat) (t : Text) (h : c ≠ '"') :
    escapeFrom block quotes (c :: t) = escapeChar block c ++ escapeFrom block 0 t := by
  rw [escapeFrom, if_neg h]

theorem escapeFrom_quote (block : Bool) (quotes : Nat) (t : Text) :
    escapeFrom block quotes ('"' :: t) =
      if block && quotes < 2 then '"' :: escapeFrom block (quotes + 1) t
      else '\\' :: '"' :: escapeFrom block 0 t := by
  rw [escapeFrom, if_pos rfl]

theorem readQuoted_escapeFrom (quotes : Nat) (t done rest : Text) :
    readQuoted done (escapeFrom false quotes t ++ '"' :: rest) =
      some (done.reverse ++ t, rest) := by
  induction t generalizing quotes done with
  | nil => simp [escapeFrom, readQuoted]
  | cons c t ih =>
    by_cases hc : c = '"'
    · subst hc
      have hspells : Spells false '"' ['\\', '"'] := .letter rfl
      rw [escapeFrom_quote]
      simpa [ih] using readQuoted_spells hspells done (escapeFrom false 0 t ++ '"' :: rest)
    · rw [escapeFrom_cons false quotes t hc, List.append_assoc,
        readQuoted_spells (escapeChar_spells false hc), ih]
      simp

/-- Where a quote has to be escaped, an escaped text starts with none. -/
theorem head?_escapeFrom {block : Bool} {quotes : Nat} (hquotes : block = true → 2 ≤ quotes)
    {t : Text} (ht : t ≠ []) (rest : Text) :
    (escapeFrom block quotes t ++ rest).head? ≠ some '"' := by
  cases t with
  | nil => exact absurd rfl ht
  | cons c t =>
    by_cases hc : c = '"'
    · subst hc
      have hfull : ¬ (block && decide (quotes < 2)) = true := by
        rw [Bool.and_eq_true, decide_eq_true_eq]
        exact fun ⟨hblock, hfew⟩ => absurd (hquotes hblock) (Nat.not_le.2 hfew)
      rw [escapeFrom_quote, if_neg hfull]
      simp
    · rw [escapeFrom_cons block quotes t hc, List.append_assoc]
      exact (escapeChar_spells block hc).head _

/-- A quote in a block stands for itself unless two more follow. -/
theorem readQuotedBlock_quote {t : Text} (h : ∀ rest, t ≠ '"' :: '"' :: rest) (done : Text) :
    readQuotedBlock done ('"' :: t) = readQuotedBlock ('"' :: done) t := by
  have hfour : ∀ rest, t ≠ '"' :: '"' :: '"' :: rest := fun rest => h ('"' :: rest)
  have hfive : ∀ rest, t ≠ '"' :: '"' :: '"' :: '"' :: rest := fun rest => hfour ('"' :: rest)
  rw [readQuotedBlock.eq_def]
  split
  all_goals rename_i heq
  all_goals simp only [List.cons.injEq, reduceCtorEq, Char.reduceEq, false_and] at heq
  · exact absurd heq.2 (hfive _)
  · exact absurd heq.2 (hfour _)
  · exact absurd heq.2 (h _)
  · obtain ⟨rfl, rfl⟩ := heq
    rfl

/-- No quote follows. -/
def NoQuote (rest : Text) : Prop := ∀ more, rest ≠ '"' :: more ∧ rest ≠ '\'' :: more

theorem noQuote_cons {c : Char} (hdouble : c ≠ '"') (hsingle : c ≠ '\'') (rest : Text) :
    NoQuote (c :: rest) :=
  fun _ => ⟨fun h => hdouble (List.cons.inj h).1, fun h => hsingle (List.cons.inj h).1⟩

/-- Up to two quotes in front of the closing ones belong to the text. -/
theorem readQuotedBlock_close (done : Text) {rest : Text} (hrest : NoQuote rest) :
    readQuotedBlock done ('"' :: '"' :: '"' :: rest) = some (done.reverse, rest) ∧
      readQuotedBlock done ('"' :: '"' :: '"' :: '"' :: rest) =
        some (done.reverse ++ ['"'], rest) ∧
      readQuotedBlock done ('"' :: '"' :: '"' :: '"' :: '"' :: rest) =
        some (done.reverse ++ ['"', '"'], rest) := by
  have hne := fun more => (hrest more).1
  cases rest <;> simp_all [readQuotedBlock]

/-- After a quote, two more are written in a row only at the end. -/
theorem escapeFrom_ne_two {quotes : Nat} (hquotes : 1 ≤ quotes) {t : Text} (ht : t ≠ [])
    (hlast : quotes < 2 → t ≠ ['"']) (rest more : Text) :
    escapeFrom true quotes t ++ rest ≠ '"' :: '"' :: more := by
  intro heq
  by_cases htwo : 2 ≤ quotes
  · exact head?_escapeFrom (fun _ => htwo) ht rest (by rw [heq]; rfl)
  · cases t with
    | nil => exact ht rfl
    | cons c t =>
      by_cases hc : c = '"'
      · subst hc
        have ht' : t ≠ [] := fun h => hlast (by omega) (by rw [h])
        rw [escapeFrom_quote, if_pos (by simpa using htwo), List.cons_append] at heq
        have hhead : (escapeFrom true (quotes + 1) t ++ rest).head? ≠ some '"' :=
          head?_escapeFrom (by omega) ht' rest
        rw [(List.cons.inj heq).2] at hhead
        exact hhead rfl
      · rw [escapeFrom_cons true quotes t hc, List.append_assoc] at heq
        exact (escapeChar_spells true hc).head _ (by rw [heq]; rfl)

theorem readQuotedBlock_escapeFrom (quotes : Nat) (t done : Text) {rest : Text}
    (hrest : NoQuote rest) :
    readQuotedBlock done (escapeFrom true quotes t ++ '"' :: '"' :: '"' :: rest) =
      some (done.reverse ++ t, rest) := by
  induction t generalizing quotes done with
  | nil => simpa [escapeFrom] using (readQuotedBlock_close done hrest).1
  | cons c t ih =>
    obtain ⟨-, hfour, hfive⟩ := readQuotedBlock_close done hrest
    have hnext (quotes : Nat) : readQuotedBlock (c :: done)
        (escapeFrom true quotes t ++ '"' :: '"' :: '"' :: rest) =
          some (done.reverse ++ c :: t, rest) := by
      simpa using ih quotes (c :: done)
    by_cases hc : c = '"'
    · subst hc
      rw [escapeFrom_quote]
      split
      · -- The quote is written as it is. At the end of the text it runs into the closing ones.
        by_cases hnil : t = []
        · subst hnil
          simpa [escapeFrom] using hfour
        · by_cases hlast : t = ['"'] ∧ quotes = 0
          · obtain ⟨rfl, rfl⟩ := hlast
            simpa [escapeFrom] using hfive
          · have hfree : ∀ more, escapeFrom true (quotes + 1) t ++ '"' :: '"' :: '"' :: rest ≠
                '"' :: '"' :: more :=
              escapeFrom_ne_two (by omega) hnil
                (fun hfew ht => hlast ⟨ht, by omega⟩) _
            rw [List.cons_append, readQuotedBlock_quote hfree, hnext]
      · have hspells : Spells true '"' ['\\', '"'] := .letter rfl
        simpa using (readQuotedBlock_spells hspells done _).trans (hnext 0)
    · rw [escapeFrom_cons true quotes t hc, List.append_assoc,
        readQuotedBlock_spells (escapeChar_spells true hc), hnext]

/-! ## Single quotes -/

theorem readLiteral_plain (t done rest : Text) (h : ∀ c ∈ t, isPlain c = true ∧ c ≠ '\'') :
    readLiteral done (t ++ '\'' :: rest) = some (done.reverse ++ t, rest) := by
  induction t generalizing done with
  | nil => simp [readLiteral]
  | cons c t ih =>
    obtain ⟨hc, ht⟩ := List.forall_mem_cons.1 h
    have hstep : readLiteral done (c :: (t ++ '\'' :: rest)) =
        readLiteral (c :: done) (t ++ '\'' :: rest) := by
      rw [readLiteral.eq_def]
      simp [hc.1, hc.2]
    rw [List.cons_append, hstep, ih (c :: done) ht]
    simp

theorem readLiteralBlock_cons {c : Char} (hc : isPlain c = true ∨ c = '\n') (hquote : c ≠ '\'')
    (done t : Text) : readLiteralBlock done (c :: t) = readLiteralBlock (c :: done) t := by
  obtain hplain | rfl := hc
  · have hreturn := isPlain_ne_return hplain
    rw [readLiteralBlock.eq_def]
    split <;> simp_all
  · simp [readLiteralBlock]

/-- A quote in a block stands for itself unless two more follow. -/
theorem readLiteralBlock_quote {t : Text} (h : ∀ rest, t ≠ '\'' :: '\'' :: rest) (done : Text) :
    readLiteralBlock done ('\'' :: t) = readLiteralBlock ('\'' :: done) t := by
  have hfour : ∀ rest, t ≠ '\'' :: '\'' :: '\'' :: rest := fun rest => h ('\'' :: rest)
  have hfive : ∀ rest, t ≠ '\'' :: '\'' :: '\'' :: '\'' :: rest := fun rest => hfour ('\'' :: rest)
  rw [readLiteralBlock.eq_def]
  split
  all_goals rename_i heq
  all_goals simp only [List.cons.injEq, reduceCtorEq, Char.reduceEq, false_and] at heq
  · exact absurd heq.2 (hfive _)
  · exact absurd heq.2 (hfour _)
  · exact absurd heq.2 (h _)
  · obtain ⟨rfl, rfl⟩ := heq
    rfl

theorem readLiteralBlock_close (done : Text) {rest : Text} (hrest : NoQuote rest) :
    readLiteralBlock done ('\'' :: '\'' :: '\'' :: rest) = some (done.reverse, rest) ∧
      readLiteralBlock done ('\'' :: '\'' :: '\'' :: '\'' :: rest) =
        some (done.reverse ++ ['\''], rest) ∧
      readLiteralBlock done ('\'' :: '\'' :: '\'' :: '\'' :: '\'' :: rest) =
        some (done.reverse ++ ['\'', '\''], rest) := by
  have hne := fun more => (hrest more).2
  cases rest <;> simp_all [readLiteralBlock]

theorem le_longestRun (c : Char) (run : Nat) (t : Text) : run ≤ Quoting.longestRun c run t := by
  induction t generalizing run with
  | nil => simp [Quoting.longestRun]
  | cons d t ih =>
    rw [Quoting.longestRun]
    split
    · exact Nat.le_trans (Nat.le_succ run) (ih (run + 1))
    · exact Nat.le_max_left _ _

theorem readLiteralBlock_runs (run : Nat) (t done : Text) {rest : Text}
    (hplain : ∀ c ∈ t, isPlain c = true ∨ c = '\n') (hruns : Quoting.longestRun '\'' run t ≤ 2)
    (hrest : NoQuote rest) :
    readLiteralBlock done (t ++ '\'' :: '\'' :: '\'' :: rest) = some (done.reverse ++ t, rest) := by
  induction t generalizing run done with
  | nil => exact (readLiteralBlock_close done hrest).1.trans (by simp)
  | cons c t ih =>
    obtain ⟨-, hfour, hfive⟩ := readLiteralBlock_close done hrest
    obtain ⟨hc, ht⟩ := List.forall_mem_cons.1 hplain
    have hnext (run : Nat) (hrun : Quoting.longestRun '\'' run t ≤ 2) :
        readLiteralBlock (c :: done) (t ++ '\'' :: '\'' :: '\'' :: rest) =
          some (done.reverse ++ c :: t, rest) := by
      simpa using ih run (c :: done) ht hrun
    rw [Quoting.longestRun] at hruns
    split at hruns
    · rename_i hquote
      subst hquote
      -- A third quote in a row could only be a closing one: the run would be too long.
      by_cases hnil : t = []
      · subst hnil
        simpa using hfour
      · by_cases hlast : t = ['\'']
        · subst hlast
          simpa using hfive
        · have hfree : ∀ more, t ++ '\'' :: '\'' :: '\'' :: rest ≠ '\'' :: '\'' :: more := by
            intro more heq
            match t, hnil, hlast with
            | [d], _, hlast => simp_all
            | d :: e :: t, _, _ =>
              simp only [List.cons_append, List.cons.injEq] at heq
              obtain ⟨rfl, rfl, -⟩ := heq
              have hle := le_longestRun '\'' (run + 1 + 1 + 1) t
              simp only [Quoting.longestRun, if_true] at hruns
              omega
          rw [List.cons_append, readLiteralBlock_quote hfree, hnext (run + 1) hruns]
    · rename_i hquote
      rw [List.cons_append, readLiteralBlock_cons hc hquote,
        hnext 0 (Nat.le_trans (Nat.le_max_right _ _) hruns)]

/-! ## Any quotes -/

theorem longestRun_pos {c : Char} {t : Text} (h : c ∈ t) (run : Nat) :
    0 < Quoting.longestRun c run t := by
  induction t generalizing run with
  | nil => cases h
  | cons d t ih =>
    rw [Quoting.longestRun]
    split
    · exact Nat.lt_of_lt_of_le (Nat.succ_pos run) (le_longestRun c (run + 1) t)
    · rename_i hne
      obtain rfl | ht := List.mem_cons.1 h
      · exact absurd rfl hne
      · exact Nat.lt_of_lt_of_le (ih ht 0) (Nat.le_max_right _ _)

theorem plain_of_not_needsEscape {t : Text} (h : t.any Quoting.needsEscape = false) :
    ∀ c ∈ t, isPlain c = true ∨ c = '\n' := by
  intro c hc
  have hescape := List.any_eq_false.1 h c hc
  simpa [Quoting.needsEscape, Decidable.or_iff_not_imp_left] using hescape

theorem of_eq_literal {t : Text} (h : Quoting.of t = .literal) :
    ∀ c ∈ t, isPlain c = true ∧ c ≠ '\'' := by
  have hguard : t.any Quoting.needsEscape = false ∧ '\n' ∉ t ∧
      Quoting.longestRun '\'' 0 t = 0 := by
    revert h
    simp only [Quoting.of]
    split_ifs <;> simp_all
  obtain ⟨hcodes, hnewline, hsingles⟩ := hguard
  intro c hc
  refine ⟨(plain_of_not_needsEscape hcodes c hc).resolve_right ?_, ?_⟩
  · rintro rfl
    exact hnewline hc
  · rintro rfl
    exact absurd hsingles (Nat.ne_of_gt (longestRun_pos hc 0))

theorem of_eq_literalBlock {t : Text} (h : Quoting.of t = .literalBlock) :
    (∀ c ∈ t, isPlain c = true ∨ c = '\n') ∧ Quoting.longestRun '\'' 0 t ≤ 2 := by
  have hguard : t.any Quoting.needsEscape = false ∧ Quoting.longestRun '\'' 0 t ≤ 2 := by
    revert h
    simp only [Quoting.of]
    split_ifs <;> simp_all
  exact ⟨plain_of_not_needsEscape hguard.1, hguard.2⟩

theorem blockStart_eq {t : Text} (h : ∀ c ∈ t.head?, c ≠ '\n' ∧ c ≠ '\r') : blockStart t = t := by
  have hnone : dropNewline? t = none := by
    rw [dropNewline?.eq_def]
    split <;> simp_all
  rw [blockStart, hnone, Option.getD_none]

/-- The reader of a block starts behind the line end that the printer puts in front. -/
theorem blockStart_print {t body rest : Text}
    (h : '\n' ∉ t → ∀ c ∈ (body ++ rest).head?, c ≠ '\n' ∧ c ≠ '\r') :
    blockStart ((if t.contains '\n' then ['\n'] else []) ++ body ++ rest) = body ++ rest := by
  split
  · rfl
  · rename_i hnewline
    exact blockStart_eq (h (by simpa using hnewline))

theorem Spells.head_ne_newline {block : Bool} {c : Char} {t : Text} (h : Spells block c t)
    (hc : c ≠ '\n') (rest : Text) : ∀ d ∈ (t ++ rest).head?, d ≠ '\n' ∧ d ≠ '\r' := by
  cases h with
  | plain hplain _ _ => simpa using ⟨hc, isPlain_ne_return hplain⟩
  | letter _ => simp
  | code _ => simp
  | newline _ => exact absurd rfl hc

theorem escapeFrom_head_ne_newline {t : Text} (ht : '\n' ∉ t) (quotes : Nat) (rest : Text) :
    ∀ c ∈ (escapeFrom true quotes t ++ '"' :: rest).head?, c ≠ '\n' ∧ c ≠ '\r' := by
  cases t with
  | nil => simp [escapeFrom]
  | cons c t =>
    by_cases hc : c = '"'
    · subst hc
      rw [escapeFrom_quote]
      split <;> simp
    · rw [escapeFrom_cons true quotes t hc, List.append_assoc]
      exact (escapeChar_spells true hc).head_ne_newline (fun h => ht (by simp [h])) _

/-- One quote opens a string unless two more make it a block. -/
theorem readString_quoted {t : Text} (h : ∀ more, t ≠ '"' :: '"' :: more) :
    readString ('"' :: t) = readQuoted [] t := by
  rw [readString.eq_def]
  split <;> simp_all

theorem readString_literal {t : Text} (h : ∀ more, t ≠ '\'' :: '\'' :: more) :
    readString ('\'' :: t) = readLiteral [] t := by
  rw [readString.eq_def]
  split <;> simp_all

/-- A string is read back from its quotes. -/
theorem readString_printText (s : String) {rest : Text} (hrest : NoQuote rest) :
    readString (printText s ++ rest) = some (s.toList, rest) := by
  generalize ht : s.toList = t
  cases hq : Quoting.of t with
  | basic =>
    have hprint : printText s ++ rest = '"' :: (escapeFrom false 0 t ++ '"' :: rest) := by
      simp [printText, ht, hq, Quoting.mark, Quoting.isBlock]
    rw [hprint, readString_quoted, readQuoted_escapeFrom]
    · rfl
    · intro more heq
      by_cases hnil : t = []
      · subst hnil
        exact (hrest more).1 (List.cons.inj heq).2
      · have hhead : (escapeFrom false 0 t ++ '"' :: rest).head? ≠ some '"' :=
          head?_escapeFrom (by simp) hnil _
        exact hhead (by rw [heq]; rfl)
  | literal =>
    have hprint : printText s ++ rest = '\'' :: (t ++ '\'' :: rest) := by
      simp [printText, ht, hq, Quoting.mark, Quoting.isBlock]
    have hplain := of_eq_literal hq
    rw [hprint, readString_literal, readLiteral_plain t [] rest hplain]
    · rfl
    · intro more heq
      cases t with
      | nil => exact (hrest more).2 (List.cons.inj heq).2
      | cons c t => exact (hplain c List.mem_cons_self).2 (List.cons.inj heq).1
  | basicBlock =>
    have hprint : printText s ++ rest = '"' :: '"' :: '"' ::
        ((if t.contains '\n' then ['\n'] else []) ++ escapeFrom true 0 t ++
          '"' :: '"' :: '"' :: rest) := by
      simp [printText, ht, hq, Quoting.mark, Quoting.isBlock]
    rw [hprint, readString, blockStart_print, readQuotedBlock_escapeFrom 0 t [] hrest]
    · rfl
    · exact fun hnewline => escapeFrom_head_ne_newline hnewline 0 _
  | literalBlock =>
    have hprint : printText s ++ rest = '\'' :: '\'' :: '\'' ::
        ((if t.contains '\n' then ['\n'] else []) ++ t ++ '\'' :: '\'' :: '\'' :: rest) := by
      simp [printText, ht, hq, Quoting.mark, Quoting.isBlock]
    obtain ⟨hplain, hruns⟩ := of_eq_literalBlock hq
    rw [hprint, readString, blockStart_print, readLiteralBlock_runs 0 t [] hplain hruns hrest]
    · rfl
    · intro hnewline
      cases t with
      | nil => simp
      | cons c t =>
        have hc := (hplain c List.mem_cons_self).resolve_right
          (fun h => hnewline (by simp [h]))
        simpa using ⟨isPlain_ne_newline hc, isPlain_ne_return hc⟩

theorem printText_head (s : String) : ∃ t, printText s = '"' :: t ∨ printText s = '\'' :: t := by
  cases hq : Quoting.of s.toList <;> simp [printText, hq, Quoting.mark]

theorem readScalar_printText (s : String) {rest : Text} (hrest : NoQuote rest) :
    readScalar (printText s ++ rest) = some (.str s, rest) := by
  have hread := readString_printText s hrest
  obtain ⟨t, h | h⟩ := printText_head s
  all_goals
    rw [h, List.cons_append] at hread ⊢
    simp [readScalar, hread]

end Uplift.Toml
