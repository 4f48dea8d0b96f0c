-- How the splitter reads. It follows the spots of the text, whatever the text
-- is. Code that keeps to an entry's lexis it copies as it stands, a comment
-- outside brackets it sets down with the entry it follows, and a comma sets
-- the entry down.
import Uplift.Proofs.State.Lexis

namespace Uplift.State

open Text (isBlank isBlankText)

namespace Splitter

/-! ## The spot of the cursor -/

/-- Where the splitter takes the cursor to be. -/
def spot (s : Splitter) : Spot :=
  match s.mode with
  | .code => .code s.depth
  | .slash => .slash s.depth
  | .quoted q => .quoted q s.depth
  | .escaped q => .escaped q s.depth
  | .lineComment read => .line s.depth (read.getLast?.any isBlank)
  | .blockComment _ star => .block s.depth star

@[simp]
theorem push_depth (s : Splitter) (t : Text) : (s.push t).depth = s.depth := rfl

@[simp]
theorem push_mode (s : Splitter) (t : Text) : (s.push t).mode = s.mode := rfl

@[simp]
theorem push_current (s : Splitter) (t : Text) : (s.push t).current = s.current ++ t := rfl

@[simp]
theorem push_done (s : Splitter) (t : Text) : (s.push t).done = s.done := rfl

@[simp]
theorem push_comment (s : Splitter) (t : Text) : (s.push t).comment = s.comment := rfl

theorem attachToLast_frame (s : Splitter) (t : Text) :
    (s.attachToLast t).depth = s.depth ∧ (s.attachToLast t).mode = s.mode ∧
      (s.attachToLast t).current = s.current ∧ (s.attachToLast t).comment = s.comment := by
  unfold attachToLast
  split <;> exact ⟨rfl, rfl, rfl, rfl⟩

theorem endComment_spot (s : Splitter) (read : Text) :
    (s.endComment read).mode = .code ∧ (s.endComment read).depth = s.depth := by
  unfold endComment
  dsimp only
  split_ifs
  · exact ⟨rfl, rfl⟩
  · exact ⟨rfl, rfl⟩
  · obtain ⟨hd, hm, _⟩ := attachToLast_frame { s with mode := .code } (Text.trimEnd read)
    exact ⟨hm, hd⟩
  · exact ⟨rfl, rfl⟩

theorem readCode_spot {s : Splitter} (hs : s.mode = .code) (c : Char) :
    (s.readCode c).spot = Spot.ofCode s.depth c := by
  unfold readCode Spot.ofCode
  split_ifs <;> simp_all [spot, finishEntry]

/-- The splitter goes from spot to spot as the text does. -/
theorem step_spot (s : Splitter) (c : Char) : (s.step c).spot = s.spot.next c := by
  cases hm : s.mode with
  | code => simpa [step, spot, hm, Spot.next] using readCode_spot hm c
  | slash =>
    simp only [step, spot, hm, Spot.next]
    split_ifs
    · rfl
    · rfl
    · exact readCode_spot rfl c
  | quoted q =>
    simp only [step, spot, hm, Spot.next]
    split_ifs
    · rfl
    · rfl
    · simp [hm]
  | escaped q => simp [step, spot, hm, Spot.next]
  | lineComment read =>
    simp only [step, hm]
    split_ifs with hc
    · obtain ⟨hcode, hdepth⟩ := s.endComment_spot read
      rw [readCode_spot hcode, hdepth, hc, Spot.ofCode_neutral _ rfl]
      simp [spot, hm, Spot.next]
    · simp [spot, hm, Spot.next, hc]
  | blockComment read star =>
    simp only [step, hm]
    split_ifs with hend
    · obtain ⟨hcode, hdepth⟩ := s.endComment_spot (read ++ [c])
      simp only [spot, hm, hcode, hdepth, Spot.next, if_pos hend]
    · simp [spot, hm, Spot.next, hend]

theorem foldl_spot (s : Splitter) (t : Text) : (t.foldl step s).spot = s.spot.after t := by
  induction t generalizing s with
  | nil => rfl
  | cons c t ih => rw [List.foldl_cons, ih, step_spot, Spot.after_cons]

/-! ## Copying an entry -/

/-- What is read and not yet set down: a slash that is open, or a comment. -/
def pending (s : Splitter) : Text :=
  match s.mode with
  | .slash => ['/']
  | .lineComment read => read
  | .blockComment read _ => read
  | _ => []

/-- All of the entry that is read. -/
def copied (s : Splitter) : Text := s.current ++ s.pending

/-- From `s` to `s'` the text `t` is copied, and nothing else changes that an entry is made of. -/
structure Copies (s s' : Splitter) (t : Text) : Prop where
  copied : s'.copied = s.copied ++ t
  done : s'.done = s.done
  comment : s'.comment = s.comment

theorem readCode_copies {s : Splitter} {c : Char} (hs : s.mode = .code)
    (hc : ¬ (c = ',' ∧ s.depth = 0)) : Copies s (s.readCode c) [c] := by
  unfold readCode
  rw [if_neg hc]
  split_ifs <;> exact ⟨by simp [copied, pending, *], rfl, rfl⟩

theorem not_comma_of_entry {d : Nat} {c : Char} (h : Lexis.entry.allowsCode d c = true) :
    ¬ (c = ',' ∧ d = 0) := by
  rintro ⟨rfl, rfl⟩
  cases h

/-- A comment inside brackets stays in the entry. -/
theorem endComment_copies {s : Splitter} (read : Text) (hd : s.depth ≠ 0) :
    Copies { s with mode := .code } (s.endComment read) (Text.trimEnd read) := by
  unfold endComment
  dsimp only
  rw [if_pos (Nat.pos_of_ne_zero hd)]
  exact ⟨by simp [copied, pending], rfl, rfl⟩

theorem step_copies {s : Splitter} {c : Char} (hc : Lexis.entry.allows s.spot c = true)
    (hs : Lexis.entry.Reaches s.spot) : Copies s (s.step c) [c] := by
  cases hm : s.mode with
  | code =>
    simp only [spot, hm, Lexis.allows] at hc
    simpa only [step, hm] using readCode_copies hm (not_comma_of_entry hc)
  | slash =>
    simp only [step, hm]
    split_ifs with hslash hstar
    · exact ⟨by simp [copied, pending, hm, hslash], rfl, rfl⟩
    · exact ⟨by simp [copied, pending, hm, hstar], rfl, rfl⟩
    · simp only [spot, hm, Lexis.allows, hslash, hstar, or_self, if_false] at hc
      obtain ⟨hcopied, hdone, hcomment⟩ :=
        readCode_copies (s := { s.push ['/'] with mode := .code }) rfl (not_comma_of_entry hc)
      exact ⟨by rw [hcopied]; simp [copied, pending, hm], hdone, hcomment⟩
  | quoted q =>
    simp only [step, hm]
    split_ifs <;> exact ⟨by simp [copied, pending, hm], rfl, rfl⟩
  | escaped q =>
    simp only [step, hm]
    exact ⟨by simp [copied, pending, hm], rfl, rfl⟩
  | lineComment read =>
    have hd : s.depth ≠ 0 := by simpa [spot, hm, Lexis.Reaches, Lexis.entry] using hs
    simp only [step, hm]
    split_ifs with hnl
    · have htrim : Text.trimEnd read = read := by
        refine Text.trimEnd_eq_self fun d hlast => ?_
        simpa [spot, hm, Lexis.allows, Lexis.entry, hnl, hlast] using hc
      obtain ⟨hcode, hdepth⟩ := s.endComment_spot read
      have hin := endComment_copies read hd
      have hend := readCode_copies (c := c) hcode (by simp [hdepth, hd])
      refine ⟨?_, hend.done.trans hin.done, hend.comment.trans hin.comment⟩
      rw [hend.copied, hin.copied, htrim]
      simp [copied, pending, hm]
    · exact ⟨by simp [copied, pending, hm], rfl, rfl⟩
  | blockComment read star =>
    have hd : s.depth ≠ 0 := by simpa [spot, hm, Lexis.Reaches, Lexis.entry] using hs
    simp only [step, hm]
    split_ifs with hend
    · have htrim : Text.trimEnd (read ++ [c]) = read ++ [c] := by
        refine Text.trimEnd_eq_self fun d hlast => ?_
        rw [List.getLast?_concat, hend.2] at hlast
        cases hlast
        rfl
      have hin := endComment_copies (read ++ [c]) hd
      refine ⟨?_, hin.done, hin.comment⟩
      rw [hin.copied, htrim]
      simp [copied, pending, hm]
    · exact ⟨by simp [copied, pending, hm], rfl, rfl⟩

theorem foldl_copies {s : Splitter} {t : Text} (ht : Lexis.entry.accepts s.spot t = true)
    (hs : Lexis.entry.Reaches s.spot) : Copies s (t.foldl step s) t := by
  induction t generalizing s with
  | nil => exact ⟨by simp, rfl, rfl⟩
  | cons c t ih =>
    obtain ⟨hc, ht⟩ := Lexis.accepts_cons.1 ht
    have hone := step_copies hc hs
    rw [← step_spot] at ht
    have hrest := ih ht (by rw [step_spot]; exact hs.next hc)
    exact ⟨by rw [List.foldl_cons, hrest.copied, hone.copied, List.append_assoc,
      List.singleton_append], hrest.done.trans hone.done, hrest.comment.trans hone.comment⟩

/-! ## Comments outside brackets -/

theorem foldl_line_body {s : Splitter} {read body : Text} (hs : s.mode = .lineComment read)
    (hbody : '\n' ∉ body) :
    body.foldl step s = { s with mode := .lineComment (read ++ body) } := by
  induction body generalizing s read with
  | nil => simp [← hs]
  | cons c body ih =>
    rw [List.mem_cons, not_or] at hbody
    have hstep : s.step c = { s with mode := .lineComment (read ++ [c]) } := by
      simp only [step, hs, if_neg (Ne.symm hbody.1)]
    rw [List.foldl_cons, hstep, ih rfl hbody.2]
    simp

theorem foldl_block_body {s : Splitter} {read body : Text} {star : Bool}
    (hs : s.mode = .blockComment read star) (hbody : ¬ ['*', '/'] <:+: body)
    (hstar : star = true → body.head? ≠ some '/') :
    ∃ b, body.foldl step s = { s with mode := .blockComment (read ++ body) b } := by
  induction body generalizing s read star with
  | nil => exact ⟨star, by simp [← hs]⟩
  | cons c body ih =>
    have hstep : s.step c = { s with mode := .blockComment (read ++ [c]) (c == '*') } := by
      simp only [step, hs]
      refine if_neg ?_
      rintro ⟨hon, rfl⟩
      exact hstar hon rfl
    obtain ⟨hrest, hhead⟩ := noEnd_cons hbody
    obtain ⟨b, hb⟩ := ih (s := { s with mode := .blockComment (read ++ [c]) (c == '*') }) rfl
      hrest hhead
    exact ⟨b, by rw [List.foldl_cons, hstep, hb]; simp⟩

theorem foldl_line_text {s : Splitter} {t : Text} (hs : s.mode = .code) (ht : IsLineText t) :
    t.foldl step s = { s with mode := .lineComment t } := by
  obtain ⟨body, rfl, hbody⟩ := ht
  have hopen : ['/', '/'].foldl step s = { s with mode := .lineComment ['/', '/'] } := by
    simp [step, hs, readCode]
  rw [show '/' :: '/' :: body = ['/', '/'] ++ body from rfl, List.foldl_append, hopen,
    foldl_line_body rfl hbody]

/-- A line comment is read up to the end of its line. -/
theorem foldl_line {s : Splitter} {t : Text} (hs : s.mode = .code) (ht : IsLineText t) :
    (t ++ ['\n']).foldl step s = (s.endComment t).readCode '\n' := by
  rw [List.foldl_append, foldl_line_text hs ht]
  rfl

theorem foldl_block {s : Splitter} {t : Text} (hs : s.mode = .code) (ht : IsBlockComment t) :
    t.foldl step s = s.endComment t := by
  obtain ⟨body, rfl, hbody⟩ := ht
  have hopen : ['/', '*'].foldl step s = { s with mode := .blockComment ['/', '*'] false } := by
    simp [step, hs, readCode]
  obtain ⟨b, hb⟩ := foldl_block_body (s := { s with mode := .blockComment ['/', '*'] false }) rfl
    hbody (by simp)
  rw [show '/' :: '*' :: body ++ ['*', '/'] = ['/', '*'] ++ (body ++ ['*', '/']) from rfl,
    List.foldl_append, hopen, List.foldl_append, hb]
  simp [step, endComment]

end Splitter

theorem Spot.after_line {t : Text} (h : IsLineComment t) (d : Nat) :
    (code d).after t = line d false := by
  have hspot := Splitter.foldl_spot { depth := d } t
  rw [Splitter.foldl_line_text rfl h.1] at hspot
  have hlast : t.getLast?.any isBlank = false := by
    obtain ⟨_, _, _, hnot⟩ := Text.exists_trimEnd t
    rw [h.2] at hnot
    cases hc : t.getLast? with
    | none => rfl
    | some c => exact hnot c hc
  simpa [Splitter.spot, hlast] using hspot.symm

theorem Spot.after_block {t : Text} (h : IsBlockComment t) (d : Nat) :
    (code d).after t = code d := by
  have hspot := Splitter.foldl_spot { depth := d } t
  obtain ⟨hcode, hdepth⟩ := Splitter.endComment_spot { depth := d } t
  rw [Splitter.foldl_block rfl h] at hspot
  simpa only [Splitter.spot, hcode, hdepth] using hspot.symm

end Uplift.State
