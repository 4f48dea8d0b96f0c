-- Whole literals. A literal is whole when the brace that opens it is closed by
-- its last character and by nothing before it. Reading takes the outer braces
-- off such a literal, and what is left closes all that it opens. An expression
-- that opens like a literal and ends in something else keeps its braces, and
-- the first entry that is read from it starts with one.
import Uplift.Proofs.State.Remark
import Uplift.State.Literal

namespace Uplift.State

open Text (trimStart trimEnd trimTerminator isBlank isBlankText)

/-! ## Whole literals -/

/-- The first character is a brace, and the last character is the brace that closes it: with
brackets counted outside quotes and comments, one is open at every place in between. -/
structure IsWhole (t : Text) : Prop where
  opens : t.head? = some '{'
  ends : t.getLast? = some '}'
  inside : ∀ u v, t = u ++ v → u ≠ [] → v ≠ [] → 0 < ((Spot.code 0).after u).depth
  closed : (Spot.code 0).after t = .code 0

/-- A text without limits: comments may stand anywhere, and nothing is barred. -/
def Lexis.free : Lexis := ⟨[], fun _ => true, false⟩

/-- The same spot inside one more bracket. -/
def Spot.deeper : Spot → Spot
  | .code d => .code (d + 1)
  | .slash d => .slash (d + 1)
  | .quoted q d => .quoted q (d + 1)
  | .escaped q d => .escaped q (d + 1)
  | .line d b => .line (d + 1) b
  | .block d b => .block (d + 1) b

theorem Spot.depth_deeper (sp : Spot) : sp.deeper.depth = sp.depth + 1 := by
  cases sp <;> rfl

theorem plain_of_isCloser {c : Char} (h : isCloser c = true) :
    c ≠ '/' ∧ c ≠ '*' ∧ isQuote c = false ∧ isOpener c = false := by
  unfold isCloser at h
  simp only [Bool.or_eq_true, beq_iff_eq] at h
  rcases h with (rfl | rfl) | rfl <;> decide

theorem Lexis.free_allowsCode {d : Nat} {c : Char} :
    Lexis.free.allowsCode d c = true ↔ d ≠ 0 ∨ isCloser c = false := by
  simp [Lexis.allowsCode, Lexis.free]

/-- One bracket further in, code is read in the same way as long as it closes what it opened. -/
theorem Spot.ofCode_deeper {d : Nat} {c : Char} (h : Lexis.free.allowsCode d c = true) :
    ofCode (d + 1) c = (ofCode d c).deeper := by
  rw [Lexis.free_allowsCode] at h
  unfold ofCode
  split_ifs with hslash hquote hopener hcloser
  · rfl
  · rfl
  · rfl
  · have hd : d ≠ 0 := h.resolve_right (by simp [hcloser])
    unfold deeper
    rw [Spot.code.injEq]
    omega
  · rfl

theorem Spot.next_deeper {sp : Spot} {c : Char} (h : Lexis.free.allows sp c = true) :
    sp.deeper.next c = (sp.next c).deeper := by
  cases sp with
  | code d => exact ofCode_deeper h
  | slash d =>
    simp only [deeper, next]
    by_cases hline : c = '/'
    · simp [hline]
    · by_cases hblock : c = '*'
      · simp [hblock]
      · simp only [Lexis.allows, hline, hblock, or_self, if_false] at h
        simp only [hline, hblock, if_false]
        exact ofCode_deeper h
  | quoted q d =>
    simp only [deeper, next]
    split_ifs <;> rfl
  | escaped q d => rfl
  | line d b =>
    simp only [deeper, next]
    split_ifs <;> rfl
  | block d b =>
    simp only [deeper, next]
    split_ifs <;> rfl

/-- What the lexis without limits does not allow is a bracket that closes nothing. -/
theorem Spot.next_deeper_of_not {sp : Spot} {c : Char} (h : Lexis.free.allows sp c = false) :
    (sp.deeper.next c).depth = 0 := by
  have hcode : ∀ d, Lexis.free.allowsCode d c = false → ofCode (d + 1) c = .code 0 := by
    intro d hd
    rw [Bool.eq_false_iff, ne_eq, Lexis.free_allowsCode, not_or, not_not, Bool.not_eq_false] at hd
    obtain ⟨rfl, hcloser⟩ := hd
    obtain ⟨hslash, _, hquote, hopener⟩ := plain_of_isCloser hcloser
    simp [ofCode, hslash, hquote, hopener, hcloser]
  cases sp with
  | code d =>
    simp only [deeper, next, hcode d h]
    rfl
  | slash d =>
    simp only [Lexis.allows] at h
    split_ifs at h with hcomment
    · cases h
    · rw [not_or] at hcomment
      simp only [deeper, next, if_neg hcomment.1, if_neg hcomment.2, hcode d h]
      rfl
  | quoted q d => cases h
  | escaped q d => cases h
  | line d b => cases h
  | block d b => cases h

theorem Spot.after_deeper {sp : Spot} {t : Text} (h : Lexis.free.accepts sp t = true) :
    sp.deeper.after t = (sp.after t).deeper := by
  induction t generalizing sp with
  | nil => rfl
  | cons c t ih =>
    obtain ⟨hc, ht⟩ := Lexis.accepts_cons.1 h
    rw [after_cons, after_cons, next_deeper hc, ih ht]

/-- A text that closes more than it opens closes the bracket around it. -/
theorem Spot.exists_depth_zero {sp : Spot} {t : Text} (h : Lexis.free.accepts sp t = false) :
    ∃ u v, t = u ++ v ∧ (sp.deeper.after u).depth = 0 := by
  induction t generalizing sp with
  | nil => cases h
  | cons c t ih =>
    by_cases hc : Lexis.free.allows sp c = true
    · have ht : Lexis.free.accepts (sp.next c) t = false := by
        rw [Bool.eq_false_iff, ne_eq] at h ⊢
        intro ht
        exact h (Lexis.accepts_cons.2 ⟨hc, ht⟩)
      obtain ⟨u, v, rfl, hu⟩ := ih ht
      refine ⟨c :: u, v, rfl, ?_⟩
      rw [after_cons, next_deeper hc, hu]
    · refine ⟨[c], t, rfl, ?_⟩
      exact next_deeper_of_not (by simpa using hc)

theorem Spot.closes_brace_iff {sp : Spot} :
    sp.deeper.next '}' = .code 0 ↔ sp.isClosed = true := by
  cases sp with
  | code d => cases d <;> simp [deeper, next, ofCode, isQuote, isOpener, isCloser, isClosed]
  | slash d => cases d <;> simp [deeper, next, ofCode, isQuote, isOpener, isCloser, isClosed]
  | quoted q d =>
    simp only [deeper, next, isClosed]
    split_ifs <;> simp
  | escaped q d => simp [deeper, next, isClosed]
  | line d b => simp [deeper, next, isClosed]
  | block d b => simp [deeper, next, isClosed]

/-- Between the braces of a whole literal stands a text that closes all that it opens, and only
that. -/
theorem isWhole_braces_iff {inner : Text} :
    IsWhole ('{' :: (inner ++ ['}'])) ↔ Lexis.free.closes inner = true := by
  have hopen : (Spot.code 0).next '{' = (Spot.code 0).deeper := rfl
  rw [Lexis.closes_iff]
  constructor
  · intro h
    have haccepts : Lexis.free.accepts (.code 0) inner = true := by
      by_contra hnot
      obtain ⟨u, v, rfl, hu⟩ := Spot.exists_depth_zero (by simpa using hnot)
      have hdepth := h.inside ('{' :: u) (v ++ ['}']) (by simp) (by simp) (by simp)
      rw [Spot.after_cons, hopen, hu] at hdepth
      cases hdepth
    refine ⟨haccepts, Spot.closes_brace_iff.1 ?_⟩
    have hclosed := h.closed
    rwa [Spot.after_cons, hopen, Spot.after_append, Spot.after_deeper haccepts] at hclosed
  · rintro ⟨haccepts, hclosed⟩
    refine ⟨rfl, by rw [← List.cons_append, List.getLast?_concat], ?_, ?_⟩
    · intro u v huv hu hv
      obtain ⟨c, u, rfl⟩ := List.exists_cons_of_ne_nil hu
      obtain ⟨rfl, hsplit⟩ := List.cons.inj huv
      obtain ⟨w, rfl⟩ : ∃ w, inner = u ++ w := by
        rcases List.append_eq_append_iff.1 hsplit with ⟨w, rfl, hw⟩ | ⟨w, rfl, _⟩
        · obtain ⟨rfl, _⟩ : w = [] ∧ v = ['}'] := by
            rcases List.append_eq_singleton_iff.1 hw.symm with h | h
            · exact h
            · exact absurd h.2 hv
          exact ⟨[], by simp⟩
        · exact ⟨w, rfl⟩
      rw [Spot.after_cons, hopen, Spot.after_deeper (Lexis.accepts_append.1 haccepts).1,
        Spot.depth_deeper]
      omega
    · rw [Spot.after_cons, hopen, Spot.after_append, Spot.after_deeper haccepts]
      exact Spot.closes_brace_iff.2 hclosed

/-! ## Expressions that open like a literal -/

theorem opensLiteral_iff {text : Text} :
    opensLiteral text = true ↔ (trimTerminator text).head? = some '{' := by
  unfold opensLiteral
  rw [beq_iff_eq]
  constructor
  · intro h
    apply Text.head?_dropEndWhile _ rfl
    apply Text.head?_dropEndWhile _ rfl
    exact Text.head?_dropEndWhile h rfl
  · intro h
    obtain ⟨r, hr⟩ := Text.trimTerminator_prefix text
    rw [← hr, List.head?_append, h, Option.some_or]

/-- What was trimmed once opens a literal as it stands. -/
theorem opensLiteral_trimmed {text : Text} :
    opensLiteral (trimTerminator text) = true ↔ (trimTerminator text).head? = some '{' := by
  have hstart : trimStart (trimTerminator text) = trimTerminator text := by
    obtain ⟨r, hr⟩ := Text.trimTerminator_prefix text
    obtain ⟨_, _, _, hhead⟩ := Text.exists_trimStart text
    refine Text.trimStart_of_head? fun c hc => hhead c ?_
    rw [← hr, List.head?_append, hc, Option.some_or]
  unfold opensLiteral
  rw [hstart, beq_iff_eq]

theorem exists_inner {t : Text} (hopen : t.head? = some '{') (hend : t.getLast? = some '}') :
    ∃ inner, t = '{' :: (inner ++ ['}']) := by
  obtain ⟨rest, rfl⟩ := List.head?_eq_some_iff.1 hopen
  obtain ⟨front, hfront⟩ := List.getLast?_eq_some_iff.1 hend
  cases front with
  | nil => cases hfront
  | cons c front =>
    obtain ⟨rfl, rfl⟩ := List.cons.inj hfront
    exact ⟨front, rfl⟩

theorem interior_of_braces {text inner : Text}
    (h : trimTerminator text = '{' :: (inner ++ ['}'])) : interior text = inner := by
  simp [interior, h, Text.dropLead?, Text.dropLast?]

/-- An expression that ends in no brace is taken for an interior as it stands. -/
theorem interior_of_no_end {text : Text} (h : (trimTerminator text).getLast? ≠ some '}') :
    interior text = trimTerminator text := by
  unfold interior
  cases ht : trimTerminator text with
  | nil => rfl
  | cons c rest =>
    rw [ht] at h
    by_cases hc : c = '{'
    · have hlast : rest.getLast? ≠ some '}' := by
        intro hrest
        apply h
        rw [List.getLast?_cons, hrest]
        rfl
      simp [Text.dropLead?, hc, Text.dropLast?, hlast]
    · simp [Text.dropLead?, hc]

/-- The expression opens like a literal and is none: it does not end with a brace, or the
brackets between its braces do not match. -/
def Loose (text : Text) : Prop :=
  opensLiteral text = true ∧ ((trimTerminator text).getLast? ≠ some '}' ∨
    Lexis.free.closes (interior text) = false)

instance (text : Text) : Decidable (Loose text) := inferInstanceAs (Decidable (_ ∧ _))

/-- Of the expressions that open like a literal, those that are not loose are whole. -/
theorem isWhole_iff_not_loose {text : Text} (h : opensLiteral text = true) :
    IsWhole (trimTerminator text) ↔ ¬ Loose text := by
  unfold Loose
  by_cases hend : (trimTerminator text).getLast? = some '}'
  · obtain ⟨inner, hinner⟩ := exists_inner (opensLiteral_iff.1 h) hend
    rw [interior_of_braces hinner, hinner, isWhole_braces_iff, ← hinner]
    simp [h, hend]
  · constructor
    · intro hwhole
      exact absurd hwhole.ends hend
    · intro hnot
      exact absurd ⟨h, Or.inl hend⟩ hnot

/-! ## The brace that is left -/

namespace Splitter

/-- The first entry that is set down starts with `c`, or, before there is one, the entry that is
being read. -/
def Leads (c : Char) (s : Splitter) : Prop :=
  (s.done = [] ∧ s.current.head? = some c) ∨
    ∃ e rest, s.done = e :: rest ∧ e.text.head? = some c

section Leads

variable {c : Char} {s s' : Splitter}

theorem Leads.push (h : Leads c s) (t : Text) (hdone : s'.done = s.done)
    (hcurrent : s'.current = s.current ++ t) : Leads c s' := by
  rcases h with ⟨hd, hc⟩ | ⟨e, rest, hd, he⟩
  · left
    rw [hdone, hcurrent, List.head?_append, hc]
    exact ⟨hd, rfl⟩
  · exact Or.inr ⟨e, rest, hdone.trans hd, he⟩

theorem Leads.finishEntry (h : Leads c s) (hc : isBlank c = false) :
    ∃ e rest, s.finishEntry.done = e :: rest ∧ e.text.head? = some c := by
  rcases h with ⟨hd, hhead⟩ | ⟨e, rest, hd, he⟩
  · have htrim : (Text.trim s.current).head? = some c := by
      have hstart : trimStart s.current = s.current := by
        refine Text.trimStart_of_head? fun d hd => ?_
        rw [← Option.some.inj (hhead.symm.trans hd), hc]
      unfold Text.trim
      rw [hstart]
      exact Text.head?_trimEnd hhead hc
    have hne : (Text.trim s.current).isEmpty = false := by
      rw [List.isEmpty_eq_false_iff]
      intro hnil
      rw [hnil] at htrim
      cases htrim
    exact ⟨⟨Text.trim s.current, s.comment⟩, [], by simp [Splitter.finishEntry, hd, hne], htrim⟩
  · simp only [Splitter.finishEntry, hd]
    split_ifs
    · exact ⟨e, rest, rfl, he⟩
    · exact ⟨e, rest ++ [⟨Text.trim s.current, s.comment⟩], rfl, he⟩

theorem Leads.noteLast (h : Leads c s) (t : Text) (hdone : s'.done = noteLast t s.done)
    (hcurrent : s'.current = s.current) : Leads c s' := by
  rcases h with ⟨hd, hhead⟩ | ⟨e, rest, hd, he⟩
  · left
    rw [hdone, hcurrent, hd]
    exact ⟨rfl, hhead⟩
  · right
    rw [hdone, hd]
    rcases List.eq_nil_or_concat rest with rfl | ⟨rest, x, rfl⟩
    · exact ⟨_, [], noteLast_concat t [] e, he⟩
    · rw [List.concat_eq_append, ← List.cons_append, noteLast_concat]
      exact ⟨e, _, rfl, he⟩

theorem Leads.endComment (h : Leads c s) (read : Text) : Leads c (s.endComment read) := by
  by_cases hd : s.depth = 0
  · cases hb : isBlankText s.current with
    | false =>
      rw [endComment_own read hd hb]
      exact h.push [] rfl (by simp)
    | true =>
      cases hl : s.lineBroken with
      | true =>
        rw [endComment_lost read hd hb hl]
        exact h.push [] rfl (by simp)
      | false =>
        rw [endComment_last read hd hb hl]
        exact h.noteLast (Text.trimEnd read) rfl rfl
  · rw [endComment_inside read hd]
    exact h.push (Text.trimEnd read) rfl rfl

theorem Leads.readCode (h : Leads c s) (hc : isBlank c = false) (d : Char) :
    Leads c (s.readCode d) := by
  unfold Splitter.readCode
  split_ifs
  · exact h.push [] rfl (by simp)
  · exact h.push [d] rfl rfl
  · exact h.push [d] rfl rfl
  · exact h.push [d] rfl rfl
  · exact Or.inr (h.finishEntry hc)
  · exact h.push [d] rfl rfl
  · exact h.push [d] rfl rfl

theorem Leads.step (h : Leads c s) (hc : isBlank c = false) (d : Char) : Leads c (s.step d) := by
  unfold Splitter.step
  split
  · exact h.readCode hc d
  · split_ifs
    · exact h.push [] rfl (by simp)
    · exact h.push [] rfl (by simp)
    · refine Leads.readCode ?_ hc d
      exact h.push ['/'] rfl rfl
  · split_ifs
    · exact h.push [d] rfl rfl
    · exact h.push [d] rfl rfl
    · exact h.push [d] rfl rfl
  · exact h.push [d] rfl rfl
  · split_ifs
    · exact (h.endComment _).readCode hc d
    · exact h.push [] rfl (by simp)
  · split_ifs
    · exact h.endComment _
    · exact h.push [] rfl (by simp)

theorem Leads.foldl (h : Leads c s) (hc : isBlank c = false) (t : Text) :
    Leads c (t.foldl Splitter.step s) := by
  induction t generalizing s with
  | nil => exact h
  | cons d t ih => exact ih (h.step hc d)

theorem Leads.settle (h : Leads c s) : Leads c s.settle := by
  unfold Splitter.settle
  split
  · exact h.push ['/'] rfl rfl
  · exact h.endComment _
  · exact h.endComment _
  · exact h

end Leads

end Splitter

/-- The first entry of a text that starts with a brace starts with it. -/
theorem splitEntries_of_brace {t : Text} (h : t.head? = some '{') :
    ∃ e rest, splitEntries t = e :: rest ∧ e.text.head? = some '{' := by
  obtain ⟨t, rfl⟩ := List.head?_eq_some_iff.1 h
  have hbrace : Splitter.Leads '{' (Splitter.step {} '{') := Or.inl ⟨rfl, rfl⟩
  exact ((hbrace.foldl rfl t).settle).finishEntry rfl

end Uplift.State
