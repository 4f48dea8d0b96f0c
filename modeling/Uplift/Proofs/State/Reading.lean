-- What reading a literal gives. In a literal that closes all it opens, every
-- entry that is set down is a closed text without blanks around it, and its
-- comment is what comments there are, each trimmed, a space apart.
import Uplift.Proofs.State.Layout
import Uplift.Proofs.State.Member

namespace Uplift.State

open Text (isBlank isBlankText isSolid)

/-! ## Entries of a closed literal -/

/-- An entry as it is set down from a closed literal. -/
structure RawEntry.Kept (e : RawEntry) : Prop where
  closes : Lexis.member.closes e.text = true
  solid : isSolid e.text = true
  comment : ∀ c, e.comment = some c → Spoken c

namespace Splitter

/-- The spot behind the part of the entry that is set down. -/
def base (s : Splitter) : Spot :=
  match s.mode with
  | .quoted q => .quoted q s.depth
  | .escaped q => .escaped q s.depth
  | _ => .code s.depth

/-- What is read of a comment is the start of one. -/
def ReadsComment : Mode → Prop
  | .lineComment read => IsLineText read
  | .blockComment read star => IsBlockText read star
  | _ => True

/-- What the splitter has set down is made of closed members and of comments. -/
structure Kept (s : Splitter) : Prop where
  done : ∀ e ∈ s.done, e.Kept
  comment : ∀ c, s.comment = some c → Spoken c
  accepts : Lexis.member.accepts (.code 0) s.current = true
  after : (Spot.code 0).after s.current = s.base
  mode : ReadsComment s.mode

theorem finishEntry_kept {s : Splitter} (hdone : ∀ e ∈ s.done, e.Kept)
    (hcomment : ∀ c, s.comment = some c → Spoken c)
    (hcloses : Lexis.member.closes s.current = true) : ∀ e ∈ s.finishEntry.done, e.Kept := by
  intro e he
  simp only [finishEntry] at he
  split_ifs at he with hempty
  · exact hdone e he
  · rcases List.mem_append.1 he with he | he
    · exact hdone e he
    · obtain ⟨_, _, _, _, _, hsolid⟩ := Text.exists_pad s.current
      rw [List.mem_singleton.1 he]
      exact ⟨Lexis.member_closes_trim hcloses,
        hsolid.resolve_left (by simpa using hempty), hcomment⟩

theorem readCode_push {s : Splitter} {c : Char} (hs : s.mode = .code) (hslash : c ≠ '/')
    (hcomma : ¬ (c = ',' ∧ s.depth = 0)) :
    (s.readCode c).done = s.done ∧ (s.readCode c).comment = s.comment ∧
      (s.readCode c).current = s.current ++ [c] ∧
      (s.readCode c).base = Spot.ofCode s.depth c ∧ ReadsComment (s.readCode c).mode := by
  unfold readCode Spot.ofCode
  rw [if_neg hslash, if_neg hslash, if_neg hcomma]
  split_ifs <;> simp [base, hs, ReadsComment]

theorem readCode_kept {s : Splitter} {c : Char} (hs : s.mode = .code)
    (hdone : ∀ e ∈ s.done, e.Kept) (hcomment : ∀ c, s.comment = some c → Spoken c)
    (haccepts : Lexis.member.accepts (.code 0) s.current = true)
    (hafter : (Spot.code 0).after s.current = .code s.depth ∨
      (Spot.code 0).after s.current = .slash s.depth ∧ c ≠ '/' ∧ c ≠ '*')
    (hc : Lexis.interior.allowsCode s.depth c = true) : (s.readCode c).Kept := by
  by_cases hslash : c = '/'
  · have hcode := hafter.resolve_right fun h => h.2.1 hslash
    have hread : s.readCode c = { s with mode := .slash } := by rw [readCode, if_pos hslash]
    rw [hread]
    exact ⟨hdone, hcomment, haccepts, hcode, trivial⟩
  by_cases hcomma : c = ',' ∧ s.depth = 0
  · obtain ⟨rfl, hd⟩ := hcomma
    have hread : s.readCode ',' = { s.finishEntry with lineBroken := false } := by
      simp [readCode, isQuote, isOpener, isCloser, hd]
    have hclosed : ((Spot.code 0).after s.current).isClosed = true := by
      rcases hafter with h | ⟨h, _⟩ <;> rw [h, hd] <;> rfl
    have hfinish := finishEntry_kept hdone hcomment (Lexis.closes_iff.2 ⟨haccepts, hclosed⟩)
    rw [hread]
    exact ⟨hfinish, by simp [finishEntry], rfl, by simp [finishEntry, base, hs, hd],
      by simp [finishEntry, hs, ReadsComment]⟩
  · obtain ⟨hdone', hcomment', hcurrent, hbase, hmode⟩ := readCode_push hs hslash hcomma
    have hallows : Lexis.member.allowsCode s.depth c = true := by
      simp only [Lexis.allowsCode, Lexis.interior, Lexis.member] at hc ⊢
      grind
    have hnext : ((Spot.code 0).after s.current).next c = Spot.ofCode s.depth c := by
      rcases hafter with h | ⟨h, _, hstar⟩
      · rw [h]
        rfl
      · simp [h, Spot.next, hslash, hstar]
    have hstep : Lexis.member.allows ((Spot.code 0).after s.current) c = true := by
      rcases hafter with h | ⟨h, _, hstar⟩
      · rw [h]
        exact hallows
      · simpa [h, Lexis.allows, hslash, hstar] using hallows
    refine ⟨hdone' ▸ hdone, hcomment' ▸ hcomment, ?_, ?_, hmode⟩
    · rw [hcurrent, Lexis.accepts_append, Lexis.accepts_cons]
      exact ⟨haccepts, hstep, rfl⟩
    · rw [hcurrent, hbase, Spot.after_append, Spot.after_cons, hnext]
      rfl

/-- A character that is pushed where it may stand. -/
theorem Kept.push {s s' : Splitter} {c : Char} (h : s.Kept)
    (hc : Lexis.member.allows s.base c = true) (hdone : s'.done = s.done)
    (hcomment : s'.comment = s.comment) (hcurrent : s'.current = s.current ++ [c])
    (hbase : s'.base = s.base.next c) (hmode : ReadsComment s'.mode) : s'.Kept := by
  refine ⟨by rw [hdone]; exact h.done, by rw [hcomment]; exact h.comment, ?_, ?_, hmode⟩
  · rw [hcurrent, Lexis.accepts_append, h.after, Lexis.accepts_cons]
    exact ⟨h.accepts, hc, rfl⟩
  · rw [hcurrent, Spot.after_append, h.after, hbase]
    rfl

theorem noteLast_kept {es : List RawEntry} {t : Text} (hes : ∀ e ∈ es, e.Kept)
    (ht : IsComment t) : ∀ e ∈ noteLast t es, e.Kept := by
  rcases List.eq_nil_or_concat es with rfl | ⟨es, x, rfl⟩
  · simp [noteLast]
  · rw [List.concat_eq_append] at hes ⊢
    rw [noteLast_concat]
    intro e he
    rcases List.mem_append.1 he with he | he
    · exact hes e (List.mem_append_left _ he)
    · obtain ⟨hcloses, hsolid, hcomment⟩ := hes x (by simp)
      rw [List.mem_singleton.1 he]
      refine ⟨hcloses, hsolid, ?_⟩
      rintro _ ⟨⟩
      exact Spoken.join hcomment ht

/-- A comment outside brackets is set down with others, or lost. -/
theorem endComment_outside_kept {s : Splitter} {read : Text} (hd : s.depth = 0) (hs : s.Kept)
    (hread : IsComment (Text.trimEnd read)) : (∀ e ∈ (s.endComment read).done, e.Kept) ∧
      ∀ c, (s.endComment read).comment = some c → Spoken c := by
  cases hb : isBlankText s.current with
  | false =>
    rw [endComment_own read hd hb]
    refine ⟨hs.done, ?_⟩
    rintro _ ⟨⟩
    exact Spoken.join hs.comment hread
  | true =>
    cases hl : s.lineBroken with
    | true =>
      rw [endComment_lost read hd hb hl]
      exact ⟨hs.done, hs.comment⟩
    | false =>
      rw [endComment_last read hd hb hl]
      exact ⟨noteLast_kept hs.done hread, hs.comment⟩

theorem endLine_kept {s : Splitter} {read : Text} (h : s.Kept) (hm : s.mode = .lineComment read) :
    ((s.endComment read).readCode '\n').Kept := by
  obtain ⟨hcode, hdepth⟩ := s.endComment_spot read
  have hline : IsLineText read := by simpa [ReadsComment, hm] using h.mode
  have hafter : (Spot.code 0).after s.current = .code s.depth := by simpa [base, hm] using h.after
  by_cases hd : s.depth = 0
  · obtain ⟨hdone, hcomment⟩ := endComment_outside_kept hd h (Or.inl hline.trimEnd)
    refine readCode_kept hcode hdone hcomment ?_ (Or.inl ?_) (by rw [hdepth, hd]; rfl)
    · rw [endComment_current read hd]
      exact h.accepts
    · rw [endComment_current read hd, hdepth]
      exact hafter
  · obtain ⟨hdone, hcomment, hcurrent, hbase, hmode⟩ :=
      readCode_push (c := '\n') hcode (by decide) (by simp)
    obtain ⟨hin, hend⟩ := Lexis.member_accepts_line hd hline.trimEnd
    rw [endComment_inside read hd] at *
    refine ⟨by rw [hdone]; exact h.done, by rw [hcomment]; exact h.comment, ?_, ?_, hmode⟩
    · rw [hcurrent, List.append_assoc, Lexis.accepts_append, hafter]
      exact ⟨h.accepts, hin⟩
    · rw [hcurrent, hbase, List.append_assoc, Spot.after_append, hafter, hend]
      rfl

theorem endBlock_kept {s : Splitter} {read : Text} (h : s.Kept)
    (hm : s.mode = .blockComment read true) : (s.endComment (read ++ ['/'])).Kept := by
  obtain ⟨hcode, hdepth⟩ := s.endComment_spot (read ++ ['/'])
  have hblock : IsBlockComment (read ++ ['/']) := by
    have hread : IsBlockText read true := by simpa [ReadsComment, hm] using h.mode
    exact hread.close
  have hafter : (Spot.code 0).after s.current = .code s.depth := by simpa [base, hm] using h.after
  by_cases hd : s.depth = 0
  · have hcomment : IsComment (Text.trimEnd (read ++ ['/'])) := by
      rw [hblock.trimEnd]
      exact Or.inr hblock
    obtain ⟨hdone, hcomment⟩ := endComment_outside_kept hd h hcomment
    refine ⟨hdone, hcomment, ?_, ?_, by simp [hcode, ReadsComment]⟩
    · rw [endComment_current _ hd]
      exact h.accepts
    · rw [endComment_current _ hd, hafter]
      simp only [base, hcode, hdepth]
  · rw [endComment_inside _ hd, hblock.trimEnd]
    refine ⟨h.done, h.comment, ?_, ?_, trivial⟩
    · exact Lexis.accepts_append.2 ⟨h.accepts, by
        rw [hafter]
        exact Lexis.member_accepts_block hd hblock⟩
    · rw [Spot.after_append, hafter, Spot.after_block hblock]
      rfl

/-- One character keeps what is set down. -/
theorem step_kept {s : Splitter} {c : Char} (h : s.Kept)
    (hc : Lexis.interior.allows s.spot c = true) : (s.step c).Kept := by
  cases hm : s.mode with
  | code =>
    simp only [spot, hm, Lexis.allows] at hc
    simp only [step, hm]
    exact readCode_kept hm h.done h.comment h.accepts (Or.inl (by simpa [base, hm] using h.after)) hc
  | slash =>
    have hafter : (Spot.code 0).after s.current = .code s.depth := by simpa [base, hm] using h.after
    simp only [step, hm]
    split_ifs with hslash hstar
    · exact ⟨h.done, h.comment, h.accepts, hafter, [], rfl, by simp⟩
    · exact ⟨h.done, h.comment, h.accepts, hafter, [], rfl, by decide, by simp⟩
    · simp only [spot, hm, Lexis.allows, hslash, hstar, or_self, if_false] at hc
      refine readCode_kept rfl h.done h.comment ?_ (Or.inr ⟨?_, hslash, hstar⟩) hc
      · exact Lexis.accepts_append.2 ⟨h.accepts, by
          rw [hafter]
          simp [Lexis.accepts, Lexis.allows, Lexis.allowsCode, isCloser, Lexis.member]⟩
      · rw [push_current, Spot.after_append, hafter]
        rfl
  | quoted q =>
    have hbase : s.base = .quoted q s.depth := by simp only [base, hm]
    simp only [step, hm]
    split_ifs with hback hclose
    · exact h.push (by rw [hbase]; rfl) rfl rfl rfl
        (by rw [hbase]; simp [base, Spot.next, hback]) trivial
    · exact h.push (by rw [hbase]; rfl) rfl rfl rfl
        (by rw [hbase]; simp [base, Spot.next, if_neg hback, if_pos hclose]) trivial
    · exact h.push (by rw [hbase]; rfl) rfl rfl rfl
        (by rw [hbase]; simp [base, hm, Spot.next, hback, hclose]) (by simp [hm, ReadsComment])
  | escaped q =>
    have hbase : s.base = .escaped q s.depth := by simp only [base, hm]
    simp only [step, hm]
    exact h.push (by rw [hbase]; rfl) rfl rfl rfl (by rw [hbase]; rfl) trivial
  | lineComment read =>
    simp only [step, hm]
    split_ifs with hnl
    · rw [hnl]
      exact endLine_kept h hm
    · obtain ⟨body, hread, hbody⟩ : IsLineText read := by simpa [ReadsComment, hm] using h.mode
      refine ⟨h.done, h.comment, h.accepts, by simpa [base, hm] using h.after, body ++ [c], ?_, ?_⟩
      · simp [hread]
      · simp [hbody, Ne.symm hnl]
  | blockComment read star =>
    simp only [step, hm]
    split_ifs with hend
    · obtain ⟨rfl, rfl⟩ := hend
      exact endBlock_kept h hm
    · have hread : IsBlockText read star := by simpa [ReadsComment, hm] using h.mode
      exact ⟨h.done, h.comment, h.accepts, by simpa [base, hm] using h.after, hread.concat hend⟩

theorem foldl_kept {s : Splitter} {t : Text} (h : s.Kept)
    (ht : Lexis.interior.accepts s.spot t = true) : (t.foldl step s).Kept := by
  induction t generalizing s with
  | nil => exact h
  | cons c t ih =>
    obtain ⟨hc, ht⟩ := Lexis.accepts_cons.1 ht
    rw [← step_spot] at ht
    exact ih (step_kept h hc) ht

/-- Outside brackets, what is read of an entry is closed. -/
theorem Kept.copied_closes {s : Splitter} (h : s.Kept) (hs : s.spot.isClosed = true) :
    Lexis.member.closes s.copied = true := by
  obtain ⟨hd, hm⟩ := of_spot_closed hs
  have hafter : (Spot.code 0).after s.current = .code 0 := by
    rcases hm with hm | hm <;> simpa only [base, hm, hd] using h.after
  rw [Lexis.closes_iff, Splitter.copied, Lexis.accepts_append, Spot.after_append, hafter]
  rcases hm with hm | hm
  · simpa only [pending, hm] using ⟨⟨h.accepts, rfl⟩, rfl⟩
  · simpa only [pending, hm] using ⟨⟨h.accepts, by decide⟩, rfl⟩

end Splitter

/-- Every entry that is set down from a closed literal is kept. -/
theorem splitEntries_kept {inner : Text} (h : Lexis.interior.closes inner = true) :
    ∀ e ∈ splitEntries inner, e.Kept := by
  obtain ⟨haccepts, hclosed⟩ := Lexis.closes_iff.1 h
  have hstart : Splitter.Kept {} := ⟨by simp, by simp, rfl, rfl, trivial⟩
  have hkept : (scanEntries inner).Kept := Splitter.foldl_kept hstart haccepts
  have hspot : (scanEntries inner).spot.isClosed = true := by
    rw [scanEntries, Splitter.foldl_spot]
    exact hclosed
  have hbehind : Splitter.Behind (scanEntries inner) (scanEntries inner).copied
      (scanEntries inner).done (scanEntries inner).comment := ⟨hspot, rfl, rfl, rfl⟩
  have hcopied := hkept.copied_closes hspot
  unfold splitEntries
  rw [hbehind.settle_eq]
  exact Splitter.finishEntry_kept hkept.done hkept.comment hcopied

end Uplift.State
