-- Remarks. A remark is comment text that can be read in one go: block comments
-- a space apart, of which the last may be a line comment. Comments are joined
-- to one another as they are found, and what comes of it is a remark, or it is
-- broken by a newline behind a line comment.
import Uplift.Proofs.State.Copying

namespace Uplift.State

open Text (isBlank isBlankText)

/-! ## Remarks -/

/-- Block comments a space apart, of which the last may be a line comment instead. -/
inductive Remark : Text → Prop
  | line {t : Text} : IsLineText t → Remark t
  | block {t : Text} : IsBlockComment t → Remark t
  | more {t rest : Text} : IsBlockComment t → Remark rest → Remark (t ++ ' ' :: rest)

theorem IsBlockComment.trimEnd {t : Text} (h : IsBlockComment t) : Text.trimEnd t = t := by
  obtain ⟨body, rfl, _⟩ := h
  refine Text.trimEnd_eq_self fun c hc => ?_
  rw [show '/' :: '*' :: body ++ ['*', '/'] = ('/' :: '*' :: body ++ ['*']) ++ ['/'] by simp,
    List.getLast?_concat] at hc
  cases hc
  rfl

theorem Remark.head? {t : Text} (h : Remark t) : t.head? = some '/' := by
  cases h with
  | line h =>
    obtain ⟨_, rfl, _⟩ := h
    rfl
  | block h =>
    obtain ⟨_, rfl, _⟩ := h
    rfl
  | more h _ =>
    obtain ⟨_, rfl, _⟩ := h
    rfl

/-! ## Comments joined -/

/-- One comment, trimmed. -/
def IsComment (t : Text) : Prop := IsLineComment t ∨ IsBlockComment t

/-- A comment of which a newline leaves a part behind: up to there it is a remark. -/
def Broken (c : Text) : Prop := ∃ a rest, c = a ++ '\n' :: rest ∧ Remark a

/-- The comment of an entry, as comments are joined. -/
structure Spoken (c : Text) : Prop where
  remark_or_broken : Remark c ∨ Broken c
  trimmed : Text.trimEnd c = c

theorem IsComment.remark {t : Text} (h : IsComment t) : Remark t := by
  rcases h with hline | hblock
  · exact .line hline.1
  · exact .block hblock

theorem IsComment.trimEnd {t : Text} (h : IsComment t) : Text.trimEnd t = t := by
  rcases h with hline | hblock
  · exact hline.2
  · exact hblock.trimEnd

theorem Broken.append {c : Text} (h : Broken c) (t : Text) : Broken (c ++ t) := by
  obtain ⟨a, rest, rfl, ha⟩ := h
  exact ⟨a, rest ++ t, by simp, ha⟩

theorem Broken.more {b c : Text} (hb : IsBlockComment b) (h : Broken c) :
    Broken (b ++ ' ' :: c) := by
  obtain ⟨a, rest, rfl, ha⟩ := h
  exact ⟨b ++ ' ' :: a, rest, by simp, .more hb ha⟩

/-- A line comment takes in all that follows it on its line. -/
theorem IsLineText.join {u : Text} (hu : IsLineText u) (t : Text) :
    Remark (u ++ ' ' :: t) ∨ Broken (u ++ ' ' :: t) := by
  obtain ⟨body, rfl, hbody⟩ := hu
  by_cases hnl : '\n' ∈ t
  · obtain ⟨t1, t2, rfl, ht1⟩ := List.eq_append_cons_of_mem hnl
    exact Or.inr ⟨'/' :: '/' :: body ++ ' ' :: t1, t2, by simp,
      .line ⟨body ++ ' ' :: t1, by simp, by simp [hbody, ht1]⟩⟩
  · exact Or.inl (.line ⟨body ++ ' ' :: t, by simp, by simp [hbody, hnl]⟩)

theorem Remark.join {c t : Text} (hc : Remark c) (ht : IsComment t) :
    Remark (c ++ ' ' :: t) ∨ Broken (c ++ ' ' :: t) := by
  induction hc with
  | line hu => exact hu.join t
  | block hb => exact Or.inl (.more hb ht.remark)
  | @more b rest hb _ ih =>
    rw [List.append_assoc, List.cons_append]
    exact ih.imp (.more hb) (.more hb)

theorem Spoken.join {old : Option Text} {t : Text} (hold : ∀ c, old = some c → Spoken c)
    (ht : IsComment t) : Spoken (joinComment old t) := by
  cases old with
  | none => exact ⟨Or.inl ht.remark, ht.trimEnd⟩
  | some c =>
    obtain ⟨hparts, _⟩ := hold c rfl
    refine ⟨?_, ?_⟩
    · rcases hparts with hc | hc
      · exact hc.join ht
      · exact Or.inr (hc.append _)
    · have htrim := Text.trimEnd_append_of_head? (s := c ++ [' ']) ht.remark.head? rfl
      rw [ht.trimEnd] at htrim
      simpa [joinComment] using htrim

theorem IsLineText.trimEnd {t : Text} (h : IsLineText t) : IsLineComment (Text.trimEnd t) := by
  obtain ⟨body, rfl, hbody⟩ := h
  obtain ⟨r, hr, hblank, hlast⟩ := Text.exists_trimEnd ('/' :: '/' :: body)
  refine ⟨?_, Text.trimEnd_eq_self hlast⟩
  -- The slashes are not blank, so they stay.
  rcases hkept : Text.trimEnd ('/' :: '/' :: body) with _ | ⟨c, _ | ⟨d, rest⟩⟩
  · rw [hkept, List.nil_append] at hr
    rw [← hr] at hblank
    cases hblank
  · rw [hkept, List.singleton_append] at hr
    rw [← (List.cons.inj hr).2] at hblank
    cases hblank
  · simp only [hkept, List.cons_append, List.cons.injEq] at hr
    obtain ⟨rfl, rfl, hrest⟩ := hr
    exact ⟨rest, rfl, fun hmem => hbody (hrest ▸ List.mem_append_left r hmem)⟩

/-- A block comment up to a place before its end. `star` tells that a star is last. -/
def IsBlockText (t : Text) (star : Bool) : Prop :=
  ∃ body, t = '/' :: '*' :: body ∧ ¬ ['*', '/'] <:+: body ∧
    (star = true ↔ body.getLast? = some '*')

theorem IsBlockText.concat {t : Text} {star : Bool} (h : IsBlockText t star) {c : Char}
    (hc : ¬ (star = true ∧ c = '/')) : IsBlockText (t ++ [c]) (c == '*') := by
  obtain ⟨body, rfl, hbody, hstar⟩ := h
  refine ⟨body ++ [c], by simp, ?_, by simp⟩
  rw [List.infix_concat_iff, List.suffix_concat_iff]
  rintro ((hnil | ⟨u, hu, hsuffix⟩) | hin)
  · cases hnil
  · obtain ⟨rfl, hlast⟩ := List.append_inj' (show ['*'] ++ ['/'] = u ++ [c] from hu) rfl
    obtain ⟨v, rfl⟩ := hsuffix
    refine hc ⟨hstar.2 (by simp), ?_⟩
    simpa using hlast.symm
  · exact hbody hin

theorem IsBlockText.close {t : Text} (h : IsBlockText t true) : IsBlockComment (t ++ ['/']) := by
  obtain ⟨body, rfl, hbody, hstar⟩ := h
  obtain ⟨u, rfl⟩ := List.getLast?_eq_some_iff.1 (hstar.1 rfl)
  exact ⟨u, by simp, fun hin => hbody (hin.trans (List.prefix_append u ['*']).isInfix)⟩

namespace Splitter

/-! ## Comments that are set down -/

theorem joinComment_joinComment (old : Option Text) (t rest : Text) :
    joinComment (some (joinComment old t)) rest = joinComment old (t ++ ' ' :: rest) := by
  cases old <;> simp [joinComment]

/-- The entries with `t` in the comment of the last. -/
def noteLast (t : Text) (es : List RawEntry) : List RawEntry :=
  match es.getLast? with
  | none => es
  | some e => es.dropLast ++ [{ e with comment := some (joinComment e.comment t) }]

theorem attachToLast_eq (s : Splitter) (t : Text) :
    s.attachToLast t = { s with done := noteLast t s.done } := by
  unfold attachToLast noteLast
  cases s.done.getLast? <;> rfl

theorem noteLast_concat (t : Text) (es : List RawEntry) (e : RawEntry) :
    noteLast t (es ++ [e]) = es ++ [{ e with comment := some (joinComment e.comment t) }] := by
  unfold noteLast
  rw [List.getLast?_concat, List.dropLast_concat]

theorem noteLast_noteLast (t rest : Text) (es : List RawEntry) :
    noteLast rest (noteLast t es) = noteLast (t ++ ' ' :: rest) es := by
  rcases List.eq_nil_or_concat es with rfl | ⟨es, e, rfl⟩
  · rfl
  · rw [List.concat_eq_append, noteLast_concat, noteLast_concat, noteLast_concat,
      ← joinComment_joinComment]

theorem endComment_own {s : Splitter} (read : Text) (hd : s.depth = 0)
    (hb : isBlankText s.current = false) :
    s.endComment read =
      { s with mode := .code, comment := some (joinComment s.comment (Text.trimEnd read)) } := by
  simp [endComment, hd, hb]

theorem endComment_last {s : Splitter} (read : Text) (hd : s.depth = 0)
    (hb : isBlankText s.current = true) (hl : s.lineBroken = false) :
    s.endComment read =
      { s with mode := .code, done := noteLast (Text.trimEnd read) s.done } := by
  simp [endComment, hd, hb, hl, attachToLast_eq]

theorem endComment_lost {s : Splitter} (read : Text) (hd : s.depth = 0)
    (hb : isBlankText s.current = true) (hl : s.lineBroken = true) :
    s.endComment read = { s with mode := .code } := by
  simp [endComment, hd, hb, hl]

theorem endComment_inside {s : Splitter} (read : Text) (hd : s.depth ≠ 0) :
    s.endComment read =
      { s with mode := .code, current := s.current ++ Text.trimEnd read } := by
  simp [endComment, Nat.pos_of_ne_zero hd, push]

theorem endComment_current {s : Splitter} (read : Text) (hd : s.depth = 0) :
    (s.endComment read).current = s.current := by
  simp only [endComment, hd]
  split_ifs
  · contradiction
  · rfl
  · exact (attachToLast_frame _ _).2.2.1
  · rfl

/-- Two comments a space apart are set down as one. -/
theorem endComment_endComment {s : Splitter} {t rest : Text} (hd : s.depth = 0)
    (ht : Text.trimEnd t = t) (hr : rest.head? = some '/') :
    ((s.endComment t).push [' ']).endComment rest =
      (s.endComment (t ++ ' ' :: rest)).push [' '] := by
  have htrim : Text.trimEnd (t ++ ' ' :: rest) = t ++ ' ' :: Text.trimEnd rest := by
    have := Text.trimEnd_append_of_head? (s := t ++ [' ']) hr rfl
    simpa using this
  have hblank : ∀ b, isBlankText s.current = b → isBlankText (s.current ++ [' ']) = b := by
    rintro b rfl
    simp [Text.isBlankText, isBlank]
  cases hb : isBlankText s.current with
  | false =>
    rw [endComment_own t hd hb, endComment_own (t ++ ' ' :: rest) hd hb, endComment_own rest,
      htrim, ht, ← joinComment_joinComment]
    · rfl
    · exact hd
    · exact hblank _ hb
  | true =>
    cases hl : s.lineBroken with
    | true =>
      rw [endComment_lost t hd hb hl, endComment_lost (t ++ ' ' :: rest) hd hb hl,
        endComment_lost rest]
      · rfl
      · exact hd
      · exact hblank _ hb
      · exact hl
    | false =>
      rw [endComment_last t hd hb hl, endComment_last (t ++ ' ' :: rest) hd hb hl, htrim, ht]
      rw [endComment_last rest, ← noteLast_noteLast]
      · rfl
      · exact hd
      · exact hblank _ hb
      · exact hl

theorem endComment_newline {s : Splitter} (c : Text) (hd : s.depth = 0) :
    (s.endComment c).readCode '\n' =
      { s.endComment c with current := s.current ++ ['\n'], lineBroken := true } := by
  obtain ⟨_, hdepth⟩ := s.endComment_spot c
  rw [← endComment_current c hd]
  simp [readCode, isQuote, isOpener, isCloser, hdepth, hd, push]

/-- A remark is set down as one comment. -/
theorem foldl_remark {s : Splitter} {c : Text} (hc : Remark c) (hs : s.mode = .code)
    (hd : s.depth = 0) : ∃ pad, isBlankText pad = true ∧ (c ++ ['\n']).foldl step s =
      { s.endComment c with current := s.current ++ pad, lineBroken := true } := by
  induction hc generalizing s with
  | @line t ht => exact ⟨['\n'], rfl, by rw [foldl_line hs ht, endComment_newline t hd]⟩
  | @block t ht =>
    obtain ⟨hcode, _⟩ := s.endComment_spot t
    refine ⟨['\n'], rfl, ?_⟩
    rw [List.foldl_append, foldl_block hs ht, ← endComment_newline t hd]
    simp [step, hcode]
  | @more t rest ht hrest ih =>
    obtain ⟨hcode, hdepth⟩ := s.endComment_spot t
    have hspace : (s.endComment t).step ' ' = (s.endComment t).push [' '] := by
      simp [step, hcode, readCode, isQuote, isOpener, isCloser]
    obtain ⟨pad, hpad, hread⟩ := ih (s := (s.endComment t).push [' ']) hcode (hdepth.trans hd)
    refine ⟨' ' :: pad, hpad, ?_⟩
    rw [show t ++ ' ' :: rest ++ ['\n'] = t ++ (' ' :: (rest ++ ['\n'])) by simp,
      List.foldl_append, foldl_block hs ht, List.foldl_cons, hspace, hread,
      endComment_endComment hd ht.trimEnd hrest.head?]
    simp [endComment_current t hd, push]

end Splitter

end Uplift.State
