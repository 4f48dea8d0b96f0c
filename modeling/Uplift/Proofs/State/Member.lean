-- The members of a closed literal. A member stays closed without the blanks
-- around it, with other blanks around its colon, and with comments inside its
-- brackets. No semicolon ends it.
import Uplift.Proofs.State.Copying

namespace Uplift.State

open Text (isBlank isBlankText)

/-! ## Members -/

theorem Spot.depth_next_blank (sp : Spot) {c : Char} (hc : isBlank c = true) :
    (sp.next c).depth = sp.depth := by
  have hcode : ∀ d, (ofCode d c).depth = d := fun d => by
    rw [ofCode_neutral d (isNeutral_of_isBlank hc)]
    rfl
  cases sp with
  | code d => exact hcode d
  | slash d =>
    simp only [next]
    split_ifs
    · rfl
    · rfl
    · exact hcode d
  | quoted q d =>
    simp only [next]
    split_ifs <;> rfl
  | escaped q d => rfl
  | line d b =>
    simp only [next]
    split_ifs <;> rfl
  | block d b =>
    simp only [next]
    split_ifs <;> rfl

theorem Spot.depth_after_blanks (sp : Spot) {pad : Text} (hpad : isBlankText pad = true) :
    (sp.after pad).depth = sp.depth := by
  induction pad generalizing sp with
  | nil => rfl
  | cons c pad ih =>
    obtain ⟨hc, hpad⟩ := Text.isBlankText_cons.1 hpad
    rw [after_cons, ih _ hpad, sp.depth_next_blank hc]

/-- Blanks behind a text close nothing that it leaves open. -/
theorem Spot.isClosed_of_after_blanks {sp : Spot} {pad : Text} (hs : sp.Sound)
    (hl : sp.isLine = true → sp.depth ≠ 0) (hpad : isBlankText pad = true)
    (h : (sp.after pad).isClosed = true) : sp.isClosed = true := by
  by_cases hnil : pad = []
  · rwa [hnil] at h
  cases hline : sp.isLine with
  | true =>
    have hdepth : (sp.after pad).depth = 0 := by
      rcases isClosed_iff.1 h with h | h <;> rw [h] <;> rfl
    rw [sp.depth_after_blanks hpad] at hdepth
    exact absurd hdepth (hl hline)
  | false =>
    rw [after_neutral hs hline (isNeutral_of_isBlankText hpad) hnil] at h
    cases sp <;> simp_all [idle, isClosed_iff]

theorem Lexis.line_depth {sp : Spot} (h : Lexis.member.Reaches sp) (hl : sp.isLine = true) :
    sp.depth ≠ 0 := by
  cases sp <;> simp_all [Spot.isLine, Reaches, member, Spot.depth]

/-- A closed member stays so without the blanks around it. -/
theorem Lexis.member_closes_trim {t : Text} (h : Lexis.member.closes t = true) :
    Lexis.member.closes (Text.trim t) = true := by
  obtain ⟨l, r, ht, hl, hr, _⟩ := Text.exists_pad t
  obtain ⟨haccepts, hclosed⟩ := closes_iff.1 h
  rw [ht, accepts_append, accepts_append, Spot.after_blanks hl] at haccepts
  rw [ht, Spot.after_append, Spot.after_append, Spot.after_blanks hl] at hclosed
  have hreach : Lexis.member.Reaches ((Spot.code 0).after (Text.trim t)) :=
    Reaches.after trivial haccepts.1.2
  exact closes_iff.2 ⟨haccepts.1.2,
    Spot.isClosed_of_after_blanks (Spot.sound_after _) (line_depth hreach) hr hclosed⟩

/-- No semicolon ends a closed member. -/
theorem Lexis.member_closes_last {t : Text} (h : Lexis.member.closes t = true) :
    t.getLast? ≠ some ';' := by
  intro hlast
  obtain ⟨u, rfl⟩ := List.getLast?_eq_some_iff.1 hlast
  obtain ⟨haccepts, hclosed⟩ := closes_iff.1 h
  obtain ⟨_, hallows⟩ := accepts_append.1 haccepts
  have hallows := (accepts_cons.1 hallows).1
  have hsound := Spot.sound_after u
  rw [Spot.after_append, Spot.after_cons, Spot.after_nil] at hclosed
  -- Only code can close a text with a semicolon, and outside brackets it may not.
  cases hsp : (Spot.code 0).after u with
  | code d =>
    rw [hsp] at hallows hclosed
    cases d with
    | zero => cases hallows
    | succ d => cases hclosed
  | slash d =>
    rw [hsp] at hallows hclosed
    cases d with
    | zero => cases hallows
    | succ d => cases hclosed
  | quoted q d =>
    rw [hsp] at hsound hclosed
    have hq : ';' ≠ q := by
      rintro rfl
      cases hsound
    simp [Spot.next, hq, Spot.isClosed] at hclosed
  | escaped q d =>
    rw [hsp] at hclosed
    cases hclosed
  | line d b =>
    rw [hsp] at hclosed
    cases hclosed
  | block d b =>
    rw [hsp] at hclosed
    simp [Spot.next, Spot.isClosed] at hclosed

/-- What stands between key and value may be other blanks and colons. -/
theorem Lexis.member_closes_gap {k gap gap' v : Text}
    (hline : ((Spot.code 0).after k).isLine = false) (hgap : ∀ c ∈ gap, isNeutral c = true)
    (hgap' : ∀ c ∈ gap', isNeutral c = true) (hne : gap ≠ []) (hne' : gap' ≠ [])
    (h : Lexis.member.closes (k ++ gap ++ v) = true) :
    Lexis.member.closes (k ++ gap' ++ v) = true := by
  have hsound := Spot.sound_after k
  have hafter : ∀ gap : Text, (∀ c ∈ gap, isNeutral c = true) → gap ≠ [] →
      (Spot.code 0).after (k ++ gap) = ((Spot.code 0).after k).idle := fun gap hgap hne => by
    rw [Spot.after_append, Spot.after_neutral hsound hline hgap hne]
  rw [closes_iff, accepts_append, accepts_append, Spot.after_append _ (k ++ gap),
    hafter gap hgap hne] at h
  rw [closes_iff, accepts_append, accepts_append, Spot.after_append _ (k ++ gap'),
    hafter gap' hgap' hne']
  exact ⟨⟨⟨h.1.1.1, member_isOpen.accepts hsound hline hgap'⟩, h.1.2⟩, h.2⟩

/-! ## Comments inside brackets -/

namespace Lexis

theorem accepts_line_body (x : Lexis) (d : Nat) (b : Bool) {body : Text} (h : '\n' ∉ body) :
    x.accepts (.line d b) body = true := by
  induction body generalizing b with
  | nil => rfl
  | cons c body ih =>
    rw [List.mem_cons, not_or] at h
    have hnext : (Spot.line d b).next c = .line d (isBlank c) := if_neg (Ne.symm h.1)
    rw [accepts_cons, hnext]
    exact ⟨by simp [allows, Ne.symm h.1], ih _ h.2⟩

theorem accepts_block_body (x : Lexis) (d : Nat) (star : Bool) {body : Text}
    (h : ¬ ['*', '/'] <:+: body) (hstar : star = true → body.head? ≠ some '/') :
    x.accepts (.block d star) body = true ∧ ∃ b, (Spot.block d star).after body = .block d b := by
  induction body generalizing star with
  | nil => exact ⟨rfl, star, rfl⟩
  | cons c body ih =>
    obtain ⟨hrest, hhead⟩ := noEnd_cons h
    have hnext : (Spot.block d star).next c = .block d (c == '*') := by
      refine if_neg ?_
      rintro ⟨hon, rfl⟩
      exact hstar hon rfl
    obtain ⟨hbody, b, hb⟩ := ih _ hrest hhead
    rw [accepts_cons, Spot.after_cons, hnext]
    exact ⟨⟨rfl, hbody⟩, b, hb⟩

variable {d : Nat} {t : Text}

/-- Inside brackets, a member holds line comments. -/
theorem member_accepts_line (hd : d ≠ 0) (ht : IsLineComment t) :
    member.accepts (.code d) (t ++ ['\n']) = true ∧ (Spot.code d).after (t ++ ['\n']) = .code d := by
  have hafter := Spot.after_line ht d
  obtain ⟨body, rfl, hbody⟩ := ht.1
  have hopen : member.accepts (.code d) ['/', '/'] = true := by
    simp [accepts, allows, allowsCode, Spot.next, Spot.ofCode, member, hd]
  refine ⟨accepts_append.2 ⟨?_, by rw [hafter]; rfl⟩, by rw [Spot.after_append, hafter]; rfl⟩
  exact accepts_append.2 ⟨hopen, member.accepts_line_body d false hbody⟩

/-- Inside brackets, a member holds block comments. -/
theorem member_accepts_block (hd : d ≠ 0) (ht : IsBlockComment t) :
    member.accepts (.code d) t = true := by
  obtain ⟨body, rfl, hbody⟩ := ht
  have hopen : member.accepts (.code d) ['/', '*'] = true := by
    simp [accepts, allows, allowsCode, Spot.next, Spot.ofCode, member, hd]
  obtain ⟨hin, b, hb⟩ := member.accepts_block_body d false hbody (by simp)
  refine accepts_append.2 ⟨accepts_append.2 ⟨hopen, hin⟩, ?_⟩
  rw [show '/' :: '*' :: body = ['/', '*'] ++ body from rfl, Spot.after_append,
    show (Spot.code d).after ['/', '*'] = .block d false from rfl, hb]
  simp [accepts, allows, Spot.next]

end Lexis

end Uplift.State
