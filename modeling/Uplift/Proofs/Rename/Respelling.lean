-- Renaming an identifier is to respell the words that call it, one by one. An
-- occurrence that is passed over begins or ends inside a word, and then so does
-- every one that overlaps it; so none that counts is hidden behind it. And what
-- is cut into words again after a renaming is the same row of pieces, respelled.
import Uplift.Proofs.Rename.Words

namespace Uplift.Rename

/-! ## Passing over words -/

section

variable {name target : Text} {w rest : Marked} {prev : Option Char}

/-- A name that stands at the front of a word ends in the word or with it. -/
theorem dropName?_word (hname : ∀ c ∈ name, isIdentChar c = true)
    (hrest : ∀ m ∈ rest.head?, isIdentChar m.1 = false) {after : Marked}
    (h : dropName? (w ++ rest) name = some after) :
    ∃ v u, w = v ++ u ∧ v.map Prod.fst = name ∧ after = u ++ rest := by
  induction w generalizing name with
  | nil =>
    cases name with
    | nil =>
      rw [dropName?, Option.some.injEq] at h
      exact ⟨[], [], rfl, rfl, h.symm⟩
    | cons d name =>
      cases rest with
      | nil => cases h
      | cons m rest =>
        have hd : m.1 ≠ d := fun heq => by
          have hm := hrest m rfl
          rw [heq, hname d List.mem_cons_self] at hm
          cases hm
        simp [dropName?, hd] at h
  | cons m w ih =>
    cases name with
    | nil =>
      rw [List.cons_append, dropName?, Option.some.injEq] at h
      exact ⟨[], m :: w, rfl, rfl, h.symm⟩
    | cons d name =>
      rw [List.cons_append, dropName?] at h
      split at h
      · rename_i hd
        obtain ⟨v, u, rfl, rfl, rfl⟩ := ih (fun c hc => hname c (List.mem_cons_of_mem d hc)) h
        exact ⟨m :: v, u, rfl, by rw [List.map_cons, hd], rfl⟩
      · cases h

theorem dropName?_append (w rest : Marked) :
    dropName? (w ++ rest) (w.map Prod.fst) = some rest := by
  induction w with
  | nil => cases rest <;> rfl
  | cons m w ih => simp [dropName?, ih]

/-- A character between words is kept. -/
theorem renameFrom_other (hname : IsWord name) {m : Char × Bool} (hm : isIdentChar m.1 = false)
    (how : Passing) :
    renameFrom name target prev 0 how (m :: rest) =
      m.1 :: renameFrom name target (some m.1) 0 .keep rest := by
  have hnone : dropName? (m :: rest) name = none := by
    obtain ⟨d, name, rfl⟩ := List.exists_cons_of_ne_nil hname.1
    have hd : m.1 ≠ d := fun heq => by
      rw [heq, hname.2 d List.mem_cons_self] at hm
      cases hm
    rw [dropName?, if_neg hd]
  simp only [renameFrom, hnone]

/-- Where no word begins, what stands before is of no account. -/
theorem renameFrom_boundary (hname : IsWord name)
    (hrest : ∀ m ∈ rest.head?, isIdentChar m.1 = false) (prev prev' : Option Char)
    (how : Passing) :
    renameFrom name target prev 0 how rest = renameFrom name target prev' 0 .keep rest := by
  cases rest with
  | nil => simp [renameFrom]
  | cons m rest => rw [renameFrom_other hname (hrest m rfl), renameFrom_other hname (hrest m rfl)]

/-- Inside a word every letter is kept, also where an occurrence is being passed. -/
theorem renameFrom_inside (target : Text) (hname : IsWord name)
    (hw : ∀ m ∈ w, isIdentChar m.1 = true)
    (hrest : ∀ m ∈ rest.head?, isIdentChar m.1 = false)
    (hprev : startsWordAfter prev = false) {left : Nat} (hleft : left ≤ w.length)
    (prev' : Option Char) :
    renameFrom name target prev left .keep (w ++ rest) =
      w.map Prod.fst ++ renameFrom name target prev' 0 .keep rest := by
  induction w generalizing prev left with
  | nil =>
    obtain rfl : left = 0 := Nat.le_zero.1 hleft
    exact renameFrom_boundary hname hrest prev prev' .keep
  | cons m w ih =>
    have hletter : startsWordAfter (some m.1) = false := by
      simp [startsWordAfter, hw m List.mem_cons_self]
    have hw' : ∀ x ∈ w, isIdentChar x.1 = true := fun x hx => hw x (List.mem_cons_of_mem m hx)
    cases left with
    | succ left =>
      rw [List.cons_append, renameFrom, ih hw' hletter (Nat.le_of_succ_le_succ hleft)]
      rfl
    | zero =>
      rw [List.cons_append, renameFrom]
      cases h : dropName? (m :: (w ++ rest)) name with
      | none =>
        simp only
        rw [ih hw' hletter (Nat.zero_le _)]
        rfl
      | some after =>
        -- The occurrence begins inside the word, and ends in it or with it.
        obtain ⟨v, u, hv, rfl, -⟩ := dropName?_word (w := m :: w) hname.2 hrest h
        have hlen : (v.map Prod.fst).length - 1 ≤ w.length := by
          have := congrArg List.length hv
          simp at this ⊢
          omega
        simp only [hprev, Bool.and_false, Bool.false_and, Bool.false_eq_true, if_false]
        rw [ih hw' hletter hlen]
        rfl

/-- The letters of an occurrence that was renamed are dropped. -/
theorem renameFrom_drop (target : Text) (hname : IsWord name)
    (hrest : ∀ m ∈ rest.head?, isIdentChar m.1 = false) (prev prev' : Option Char) :
    renameFrom name target prev w.length .drop (w ++ rest) =
      renameFrom name target prev' 0 .keep rest := by
  induction w generalizing prev with
  | nil => exact renameFrom_boundary hname hrest prev prev' .drop
  | cons m w ih =>
    rw [List.cons_append, List.length_cons, renameFrom]
    exact ih (some m.1)

/-- A word ends exactly where no letter of it is left. -/
theorem endsWordBefore_eq (hw : ∀ m ∈ w, isIdentChar m.1 = true)
    (hrest : ∀ m ∈ rest.head?, isIdentChar m.1 = false) :
    endsWordBefore ((w ++ rest).head?.map Prod.fst) = w.isEmpty := by
  cases w with
  | cons m w => simp [endsWordBefore, hw m List.mem_cons_self]
  | nil =>
    cases rest with
    | nil => rfl
    | cons m rest => simp [endsWordBefore, hrest m rfl]

/-- A word is renamed as a whole or kept as a whole. -/
theorem renameFrom_word (hname : IsWord name) {c : Char} {code : Bool}
    (hc : isIdentChar c = true) (hw : ∀ m ∈ w, isIdentChar m.1 = true)
    (hrest : ∀ m ∈ rest.head?, isIdentChar m.1 = false) (prev' : Option Char) :
    renameFrom name target prev 0 .keep ((c, code) :: w ++ rest) =
      (if c :: w.map Prod.fst = name ∧ code = true ∧ startsWordAfter prev = true then target
        else c :: w.map Prod.fst) ++ renameFrom name target prev' 0 .keep rest := by
  have hletter : startsWordAfter (some c) = false := by simp [startsWordAfter, hc]
  rw [List.cons_append, renameFrom]
  cases h : dropName? ((c, code) :: (w ++ rest)) name with
  | none =>
    have hother : c :: w.map Prod.fst ≠ name := by
      rintro rfl
      rw [← List.cons_append, ← List.map_cons (f := Prod.fst) (a := (c, code)),
        dropName?_append] at h
      cases h
    simp only
    rw [renameFrom_inside target hname hw hrest hletter (Nat.zero_le _),
      if_neg fun hhit => hother hhit.1]
    rfl
  | some after =>
    obtain ⟨v, u, hv, rfl, rfl⟩ := dropName?_word (w := (c, code) :: w) hname.2 hrest h
    obtain ⟨m, v, rfl⟩ := List.exists_cons_of_ne_nil (show v ≠ [] by simpa using hname.1)
    rw [List.cons_append] at hv
    obtain ⟨rfl, rfl⟩ := List.cons.inj hv
    have hlen : (v.map Prod.fst).length ≤ (v ++ u).length := by simp
    have hkeep := renameFrom_inside target hname hw hrest hletter hlen prev'
    simp only [List.map_cons, List.length_cons, Nat.add_sub_cancel]
    rw [endsWordBefore_eq (fun x hx => hw x (List.mem_append_right v hx)) hrest]
    cases u with
    | nil =>
      -- The occurrence is the word.
      have hdrop := renameFrom_drop (w := v) target hname hrest (some c) prev'
      rw [List.append_nil] at hkeep ⊢
      by_cases hhit : code = true ∧ startsWordAfter prev = true
      · rw [if_pos (by simp [hhit]), if_pos ⟨rfl, hhit⟩, List.length_map]
        exact congrArg (target ++ ·) hdrop
      · rw [if_neg (by simpa using hhit), if_neg fun h => hhit h.2]
        exact congrArg (c :: ·) hkeep
    | cons x u =>
      have hother : c :: List.map Prod.fst (v ++ x :: u) ≠ c :: List.map Prod.fst v := by simp
      simpa [hother] using hkeep

end

/-! ## Respelled pieces -/

/-- Spell `name` as `target` where it is a word in code and no dot stands before it. -/
def Piece.respell (name target : Text) (p : Piece) : Piece :=
  if p.codeWord? = some (name, 0) then .word (target.map (·, true)) 0 else p

section

variable {name target : Text}

theorem Piece.codeWord?_respell (htarget : target ≠ []) (p : Piece) :
    (p.respell name target).codeWord? =
      if p.codeWord? = some (name, 0) then some (target, 0) else p.codeWord? := by
  unfold respell
  split
  · obtain ⟨c, t, rfl⟩ := List.exists_cons_of_ne_nil htarget
    simp [codeWord?, Function.comp_def]
  · rfl

/-- A word that can be renamed starts behind a character exactly when that leaves no letter and
no dot before it. -/
theorem startsWordAfter_some (e : Edge) (c : Char) :
    startsWordAfter (some c) = decide (e.next c = some 0) := by
  by_cases hc : isIdentChar c = true <;> by_cases hdot : c = '.' <;>
    simp [startsWordAfter, Edge.next, hc, hdot]

/-- Renaming respells the pieces of a text. -/
theorem renameFrom_marksOf (hname : IsWord name) {e : Edge} {ps : List Piece} (h : Tidy e ps)
    {prev : Option Char} (hprev : startsWordAfter prev = decide (e = some 0)) :
    renameFrom name target prev 0 .keep (marksOf ps) =
      textOf (ps.map (Piece.respell name target)) := by
  induction h generalizing prev with
  | nil => simp [renameFrom]
  | @word w n ps hw h ih =>
    obtain ⟨⟨c, code⟩, w, rfl⟩ := List.exists_cons_of_ne_nil (show w ≠ [] by simpa using hw.1)
    have hc : isIdentChar c = true := hw.2 c (by simp)
    have hletters : ∀ m ∈ w, isIdentChar m.1 = true := by
      intro m hm
      exact hw.2 m.1 (List.mem_map.2 ⟨m, List.mem_cons_of_mem _ hm, rfl⟩)
    have hstart : startsWordAfter (some c) = decide ((none : Edge) = some 0) := by
      simp [startsWordAfter, hc]
    have hhit : (c :: w.map Prod.fst = name ∧ code = true ∧ startsWordAfter prev = true) ↔
        (Piece.word ((c, code) :: w) n).codeWord? = some (name, 0) := by
      rw [Piece.codeWord?_cons, hprev]
      simp
    rw [marksOf_cons, Piece.marks,
      renameFrom_word hname hc hletters h.head_not_letter (some c), ih hstart, List.map_cons,
      textOf_cons, Piece.respell]
    simp only [hhit]
    split <;> simp [Piece.marks, Function.comp_def]
  | @other e m ps hm h ih =>
    have hsame : (Piece.other m).respell name target = .other m := by
      simp [Piece.respell, Piece.codeWord?]
    rw [marksOf_cons, Piece.marks, List.singleton_append, renameFrom_other hname hm,
      ih (startsWordAfter_some e m.1), List.map_cons, hsame, textOf_cons]
    rfl

/-- A respelled row of pieces is tidy. -/
theorem Tidy.respell (htarget : IsWord target) {e : Edge} {ps : List Piece} (h : Tidy e ps) :
    Tidy e (ps.map (Piece.respell name target)) := by
  induction h with
  | nil e => exact .nil e
  | @word w n ps hw h ih =>
    rw [List.map_cons, Piece.respell]
    split
    · rename_i hhit
      obtain ⟨c, w, hpiece, -⟩ := Piece.codeWord?_eq_some hhit
      obtain ⟨-, rfl⟩ := Piece.word.inj hpiece
      exact .word (by simpa [Function.comp_def] using htarget) ih
    · exact .word hw ih
  | other hm h ih => exact .other hm ih

theorem Respelled.append (w : Marked) {ms ms' : Marked} (h : Respelled ms ms') :
    Respelled (w ++ ms) (w ++ ms') := by
  induction w with
  | nil => exact h
  | cons m w ih => exact .same m ih

theorem Tidy.respelled (htarget : IsWord target) {e : Edge} {ps : List Piece} (h : Tidy e ps) :
    Respelled (marksOf ps) (marksOf (ps.map (Piece.respell name target))) := by
  induction h with
  | nil => exact .nil
  | @word w n ps hw h ih =>
    rw [List.map_cons, marksOf_cons, marksOf_cons, Piece.respell]
    split
    · rename_i hhit
      obtain ⟨c, w, hpiece, -⟩ := Piece.codeWord?_eq_some hhit
      obtain ⟨rfl, -⟩ := Piece.word.inj hpiece
      have hletters : ∀ m ∈ w, isIdentChar m.1 = true := by
        intro m hm
        exact hw.2 m.1 (List.mem_map.2 ⟨m, List.mem_cons_of_mem _ hm, rfl⟩)
      exact .word (hw.2 c (by simp)) hletters htarget ih
    · exact ih.append w
  | other hm h ih => exact .same _ ih

/-- Renaming respells the words of a text. -/
theorem renameIdentifier_eq (hname : IsWord name) (text target : Text) :
    renameIdentifier text name target =
      textOf ((pieces text).map (Piece.respell name target)) := by
  have hnonempty : name.isEmpty = false := by simpa using hname.1
  rw [renameIdentifier, hnonempty, ← marksOf_pieces]
  exact renameFrom_marksOf hname (tidy_pieces text) rfl

/-- A tidy row of pieces that respells words of a text is what its own text is cut into. -/
theorem Tidy.pieces_textOf {text : Text} {ps : List Piece} (h : Tidy (some 0) ps)
    (hrespelled : Respelled (marksOf (pieces text)) (marksOf ps)) : pieces (textOf ps) = ps := by
  rw [marksOf_pieces, zip_codeMask] at hrespelled
  have hmarks := hrespelled.eq_mark
  rw [← textOf, ← zip_codeMask] at hmarks
  rw [pieces, ← hmarks]
  exact h.cut_marksOf

/-- The pieces of a renamed text are the pieces of the text, respelled. -/
theorem pieces_renameIdentifier (hname : IsWord name) (htarget : IsWord target) (text : Text) :
    pieces (renameIdentifier text name target) =
      (pieces text).map (Piece.respell name target) := by
  rw [renameIdentifier_eq hname]
  exact ((tidy_pieces text).respell htarget).pieces_textOf ((tidy_pieces text).respelled htarget)

/-- Where one word is spelled otherwise, its piece alone changes. -/
theorem pieces_respell_one {text : Text} {qs rs : List Piece} {p : Piece} {n : Nat}
    (hp : pieces text = qs ++ p :: rs) (hx : p.codeWord? = some (name, n))
    (htarget : IsWord target) :
    pieces (textOf qs ++ target ++ textOf rs) = qs ++ .word (target.map (·, true)) n :: rs := by
  obtain ⟨hedge, hname, hrs⟩ := edge_of_pieces hp hx
  obtain ⟨c, w, rfl, rfl⟩ := Piece.codeWord?_eq_some hx
  have hqs : Tidy (some 0) qs := (tidy_append.1 (hp ▸ tidy_pieces text)).1
  have htidy : Tidy (some 0) (qs ++ .word (target.map (·, true)) n :: rs) := by
    refine tidy_append.2 ⟨hqs, ?_⟩
    rw [hedge]
    exact .word (by simpa [Function.comp_def] using htarget) hrs
  have hrespelled : Respelled (marksOf (pieces text))
      (marksOf (qs ++ .word (target.map (·, true)) n :: rs)) := by
    have hrest : Respelled (marksOf rs) (marksOf rs) := by
      simpa using Respelled.append (marksOf rs) .nil
    have hletters : ∀ m ∈ w, isIdentChar m.1 = true := by
      intro m hm
      exact hname.2 m.1 (List.mem_cons_of_mem c (List.mem_map_of_mem hm))
    rw [hp, marksOf_append, marksOf_append, marksOf_cons, marksOf_cons]
    exact .append (marksOf qs) (.word (hname.2 c List.mem_cons_self) hletters htarget hrest)
  have hpieces := htidy.pieces_textOf hrespelled
  simpa [Piece.marks, Function.comp_def] using hpieces

end

end Uplift.Rename
