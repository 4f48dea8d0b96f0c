-- A text as a row of pieces: words, which are runs of letters as long as they can
-- be, and the characters between them. A row of pieces is tidy when it is the one
-- way to cut the text that it spells. A word knows how many dots stand right
-- before it, which tells names of properties and spread names from the rest.
import Mathlib.Data.List.Basic
import Mathlib.Data.List.Induction
import Mathlib.Data.List.TakeWhile
import Uplift.Proofs.Rename.Reader

namespace Uplift.Rename

/-! ## What stands before a place -/

/-- Either a letter, which is `none`, or something else and that many dots behind it. -/
abbrev Edge := Option Nat

namespace Edge

/-- The edge one character on. -/
def next (e : Edge) (c : Char) : Edge :=
  if isIdentChar c then none else some (if c = '.' then e.getD 0 + 1 else 0)

/-- The edge behind `t`. -/
def after (e : Edge) (t : Text) : Edge := t.foldl next e

@[simp]
theorem after_nil (e : Edge) : e.after [] = e := rfl

@[simp]
theorem after_cons (e : Edge) (c : Char) (t : Text) : e.after (c :: t) = (e.next c).after t := rfl

@[simp]
theorem after_append (e : Edge) (s t : Text) : e.after (s ++ t) = (e.after s).after t :=
  List.foldl_append

theorem after_word {w : Text} (h : IsWord w) (e : Edge) : e.after w = none := by
  obtain ⟨w, c, rfl⟩ := (List.eq_nil_or_concat' w).resolve_left h.1
  have hc : isIdentChar c = true := h.2 c (by simp)
  rw [after_append, after_cons, after_nil, next, if_pos hc]

/-- A letter stands before a place exactly when the text up to it ends with one. -/
theorem after_eq_none_iff (t : Text) :
    after (some 0) t = none ↔ ∃ c ∈ t.getLast?, isIdentChar c = true := by
  rcases List.eq_nil_or_concat' t with rfl | ⟨s, c, rfl⟩
  · simp
  · simp [next]

/-- As many dots as are counted stand before a place, and no more. -/
theorem dots_suffix_iff (t : Text) (k : Nat) :
    List.replicate k '.' <:+ t ↔ k ≤ (after (some 0) t).getD 0 := by
  induction t using List.reverseRecOn generalizing k with
  | nil => cases k <;> simp
  | append_singleton t c ih =>
    cases k with
    | zero => simp
    | succ k =>
      have hconcat : List.replicate (k + 1) '.' <:+ t ++ [c] ↔
          List.replicate k '.' <:+ t ∧ '.' = c := by
        rw [List.replicate_succ']
        simp [List.suffix_append_inj_of_length_eq]
      rw [hconcat, ih, after_append, after_cons, after_nil, next]
      by_cases hc : c = '.'
      · have hdot : isIdentChar '.' = false := by decide
        simp [hc, hdot]
      · have hdot : ¬ '.' = c := fun h => hc h.symm
        split <;> simp [hdot]

end Edge

/-! ## Pieces -/

/-- A part of a text. -/
inductive Piece where
  /-- A word, and the number of dots right before it. -/
  | word (letters : Marked) (dots : Nat)
  | other (m : Char × Bool)

namespace Piece

/-- The characters of a piece, with whether they are code. -/
def marks : Piece → Marked
  | word w _ => w
  | other m => [m]

/-- The word in code that a piece is, with the dots before it. -/
def codeWord? : Piece → Option (Text × Nat)
  | word w n => if w.head?.any (·.2) then some (w.map Prod.fst, n) else none
  | other _ => none

end Piece

theorem Piece.codeWord?_cons {c : Char} {code : Bool} {w : Marked} {n k : Nat} {x : Text} :
    (word ((c, code) :: w) n).codeWord? = some (x, k) ↔
      c :: w.map Prod.fst = x ∧ code = true ∧ n = k := by
  cases code <;> simp [codeWord?]

theorem Piece.codeWord?_eq_some {p : Piece} {x : Text} {n : Nat}
    (h : p.codeWord? = some (x, n)) :
    ∃ c w, p = .word ((c, true) :: w) n ∧ x = c :: w.map Prod.fst := by
  match p with
  | .other _ => cases h
  | .word [] _ => cases h
  | .word ((c, code) :: w) k =>
    obtain ⟨rfl, rfl, rfl⟩ := codeWord?_cons.1 h
    exact ⟨c, w, rfl, rfl⟩

/-- The characters of a row of pieces, with whether they are code. -/
def marksOf (ps : List Piece) : Marked := ps.flatMap Piece.marks

/-- The text that a row of pieces spells. -/
def textOf (ps : List Piece) : Text := (marksOf ps).map Prod.fst

@[simp]
theorem marksOf_nil : marksOf [] = [] := rfl

@[simp]
theorem marksOf_cons (p : Piece) (ps : List Piece) : marksOf (p :: ps) = p.marks ++ marksOf ps :=
  List.flatMap_cons

@[simp]
theorem marksOf_append (ps qs : List Piece) : marksOf (ps ++ qs) = marksOf ps ++ marksOf qs :=
  List.flatMap_append

@[simp]
theorem textOf_nil : textOf [] = [] := rfl

@[simp]
theorem textOf_cons (p : Piece) (ps : List Piece) :
    textOf (p :: ps) = p.marks.map Prod.fst ++ textOf ps := by
  simp [textOf]

@[simp]
theorem textOf_append (ps qs : List Piece) : textOf (ps ++ qs) = textOf ps ++ textOf qs := by
  simp [textOf]

/-- Words are runs of letters, no two of them are neighbours, and each knows the dots before it. -/
inductive Tidy : Edge → List Piece → Prop
  | nil (e : Edge) : Tidy e []
  | word {w : Marked} {n : Nat} {ps : List Piece} (hw : IsWord (w.map Prod.fst)) :
      Tidy none ps → Tidy (some n) (.word w n :: ps)
  | other {e : Edge} {m : Char × Bool} {ps : List Piece} (hm : isIdentChar m.1 = false) :
      Tidy (e.next m.1) ps → Tidy e (.other m :: ps)

theorem tidy_append {e : Edge} {ps qs : List Piece} :
    Tidy e (ps ++ qs) ↔ Tidy e ps ∧ Tidy (e.after (textOf ps)) qs := by
  induction ps generalizing e with
  | nil => exact ⟨fun h => ⟨.nil e, h⟩, fun h => h.2⟩
  | cons p ps ih =>
    constructor
    · intro h
      cases h with
      | word hw h =>
        obtain ⟨hps, hqs⟩ := ih.1 h
        refine ⟨.word hw hps, ?_⟩
        simpa [Piece.marks, Edge.after_word hw] using hqs
      | other hm h =>
        obtain ⟨hps, hqs⟩ := ih.1 h
        exact ⟨.other hm hps, hqs⟩
    · rintro ⟨hps, hqs⟩
      cases hps with
      | word hw hps =>
        refine .word hw (ih.2 ⟨hps, ?_⟩)
        simpa [Piece.marks, Edge.after_word hw] using hqs
      | other hm hps => exact .other hm (ih.2 ⟨hps, hqs⟩)

/-- Behind a word comes no letter. -/
theorem Tidy.head_not_letter {ps : List Piece} (h : Tidy none ps) :
    ∀ m ∈ (marksOf ps).head?, isIdentChar m.1 = false := by
  cases h with
  | nil => simp
  | other hm _ => simpa [Piece.marks] using hm

theorem Tidy.takeWhile_eq_nil {ps : List Piece} (h : Tidy none ps) :
    (marksOf ps).takeWhile (fun x => isIdentChar x.1) = [] := by
  cases h with
  | nil => rfl
  | other hm _ => simp [Piece.marks, hm]

theorem Tidy.dropWhile_eq {ps : List Piece} (h : Tidy none ps) :
    (marksOf ps).dropWhile (fun x => isIdentChar x.1) = marksOf ps := by
  cases h with
  | nil => rfl
  | other hm _ => simp [Piece.marks, hm]

/-! ## Cutting a text -/

/-- Cut a text that stands behind `e` into its pieces. -/
def cut (e : Edge) : Marked → List Piece
  | [] => []
  | m :: rest =>
    if isIdentChar m.1 then
      .word (m :: rest.takeWhile fun x => isIdentChar x.1) (e.getD 0) ::
        cut none (rest.dropWhile fun x => isIdentChar x.1)
    else .other m :: cut (e.next m.1) rest
termination_by ms => ms.length
decreasing_by
  · exact Nat.lt_succ_of_le (List.length_dropWhile_le _ _)
  · simp

@[simp]
theorem marksOf_cut (e : Edge) (ms : Marked) : marksOf (cut e ms) = ms := by
  fun_induction cut e ms with
  | case1 => rfl
  | case2 e m rest hm ih => simp [Piece.marks, ih]
  | case3 e m rest hm ih => simp [Piece.marks, ih]

/-- What is cut is tidy, unless the text continues a word. -/
theorem tidy_cut {e : Edge} {ms : Marked}
    (h : e = none → ∀ m ∈ ms.head?, isIdentChar m.1 = false) : Tidy e (cut e ms) := by
  fun_induction cut e ms with
  | case1 e => exact .nil e
  | case2 e m rest hm ih =>
    cases e with
    | none => simp [h rfl m rfl] at hm
    | some n =>
      refine .word ⟨by simp, ?_⟩ (ih fun _ => ?_)
      · intro c hc
        obtain ⟨x, hx, rfl⟩ := List.mem_map.1 hc
        rcases List.mem_cons.1 hx with rfl | hx
        · exact hm
        · have hletter := List.mem_takeWhile_imp hx
          exact hletter
      · intro x hx
        have hhead := List.head?_dropWhile_not (fun x : Char × Bool => isIdentChar x.1) rest
        rw [Option.mem_def.1 hx] at hhead
        exact hhead
  | case3 e m rest hm ih =>
    have hm : isIdentChar m.1 = false := by simpa using hm
    exact .other hm (ih fun hnone => by simp [Edge.next, hm] at hnone)

/-- A tidy row of pieces is what its text is cut into. -/
theorem Tidy.cut_marksOf {e : Edge} {ps : List Piece} (h : Tidy e ps) :
    cut e (marksOf ps) = ps := by
  induction h with
  | nil => simp [cut]
  | @word w n ps hw h ih =>
    obtain ⟨m, w, rfl⟩ := List.exists_cons_of_ne_nil (show w ≠ [] by simpa using hw.1)
    have hm : isIdentChar m.1 = true := hw.2 m.1 (by simp)
    have hletters : ∀ x ∈ w, isIdentChar x.1 = true := by
      intro x hx
      exact hw.2 x.1 (List.mem_map.2 ⟨x, List.mem_cons_of_mem m hx, rfl⟩)
    have htake : (w ++ marksOf ps).takeWhile (fun x => isIdentChar x.1) = w := by
      rw [List.takeWhile_append_of_pos hletters, h.takeWhile_eq_nil, List.append_nil]
    have hdrop : (w ++ marksOf ps).dropWhile (fun x => isIdentChar x.1) = marksOf ps := by
      rw [List.dropWhile_append_of_pos hletters, h.dropWhile_eq]
    rw [marksOf_cons, Piece.marks, List.cons_append, cut, if_pos hm, htake, hdrop, ih]
    rfl
  | other hm h ih => simp [Piece.marks, cut, hm, ih]

/-- The pieces of a text. -/
def pieces (t : Text) : List Piece := cut (some 0) (t.zip (codeMask t))

theorem tidy_pieces (t : Text) : Tidy (some 0) (pieces t) := tidy_cut fun h => by simp at h

theorem marksOf_pieces (t : Text) : marksOf (pieces t) = t.zip (codeMask t) := marksOf_cut _ _

@[simp]
theorem textOf_pieces (t : Text) : textOf (pieces t) = t := by
  rw [textOf, marksOf_pieces, zip_codeMask, Reader.mark_fst]

/-! ## Words in a text -/

/-- `name` stands in the code of `text` as a word, between `pre` and `post`. -/
@[mk_iff wordIn_iff_and]
structure WordIn (text name pre post : Text) : Prop where
  split : text = pre ++ name ++ post
  code : (codeMask text)[pre.length]? = some true
  before : ∀ c ∈ pre.getLast?, isIdentChar c = false
  after : ∀ c ∈ post.head?, isIdentChar c = false

instance (text name pre post : Text) : Decidable (WordIn text name pre post) :=
  decidable_of_iff
    (text = pre ++ name ++ post ∧ (codeMask text)[pre.length]? = some true ∧
      pre.getLast?.all (!isIdentChar ·) = true ∧ post.head?.all (!isIdentChar ·) = true)
    (by simp only [wordIn_iff_and, Option.all_eq_true, Bool.not_eq_true', Option.mem_def])

theorem length_maskFrom (l : Lexeme) (b : Braces) (t : Text) :
    (maskFrom l b t).length = t.length := by
  fun_induction maskFrom l b t <;> simp_all

theorem zip_codeMask_snd (t : Text) : (t.zip (codeMask t)).map Prod.snd = codeMask t :=
  List.map_snd_zip (length_maskFrom _ _ t).le

/-- The edge at a word tells the dots before it. -/
theorem edge_of_pieces {text x : Text} {qs rs : List Piece} {p : Piece} {n : Nat}
    (hp : pieces text = qs ++ p :: rs) (hx : p.codeWord? = some (x, n)) :
    Edge.after (some 0) (textOf qs) = some n ∧ IsWord x ∧ Tidy none rs := by
  obtain ⟨c, w, rfl, rfl⟩ := Piece.codeWord?_eq_some hx
  have htidy := tidy_pieces text
  rw [hp, tidy_append] at htidy
  generalize Edge.after (some 0) (textOf qs) = e at htidy
  cases htidy.2 with
  | word hw hrs => exact ⟨rfl, hw, hrs⟩

/-- Dots stand before a word as it says. -/
theorem dots_suffix_iff_of_pieces {text x : Text} {qs rs : List Piece} {p : Piece} {n : Nat}
    (hp : pieces text = qs ++ p :: rs) (hx : p.codeWord? = some (x, n)) (k : Nat) :
    List.replicate k '.' <:+ textOf qs ↔ k ≤ n := by
  rw [Edge.dots_suffix_iff, (edge_of_pieces hp hx).1, Option.getD_some]

theorem getLast?_eq_dot_iff {text x : Text} {qs rs : List Piece} {p : Piece} {n : Nat}
    (hp : pieces text = qs ++ p :: rs) (hx : p.codeWord? = some (x, n)) :
    (textOf qs).getLast? = some '.' ↔ 0 < n := by
  rw [List.getLast?_eq_some_iff, ← Nat.succ_le_iff, ← dots_suffix_iff_of_pieces hp hx 1]
  exact exists_congr fun _ => eq_comm

/-- The words in the code of a text are among its pieces. -/
theorem wordIn_iff {text name pre post : Text} (hname : IsWord name) :
    WordIn text name pre post ↔
      ∃ qs p rs n, pieces text = qs ++ p :: rs ∧ p.codeWord? = some (name, n) ∧
        textOf qs = pre ∧ textOf rs = post := by
  constructor
  · rintro ⟨hsplit, hcode, hbefore, hafter⟩
    have hchars : (text.zip (codeMask text)).map Prod.fst = pre ++ (name ++ post) := by
      rw [zip_codeMask, Reader.mark_fst, hsplit, List.append_assoc]
    obtain ⟨a, b, hab, rfl, hb⟩ := List.map_eq_append_iff.1 hchars
    obtain ⟨w, b, rfl, rfl, rfl⟩ := List.map_eq_append_iff.1 hb
    obtain ⟨⟨c, code⟩, w, rfl⟩ := List.exists_cons_of_ne_nil (show w ≠ [] by simpa using hname.1)
    rw [← zip_codeMask_snd, hab] at hcode
    have hcode : code = true := by simpa using hcode
    subst hcode
    obtain ⟨n, hn⟩ : ∃ n, Edge.after (some 0) (a.map Prod.fst) = some n := by
      cases he : Edge.after (some 0) (a.map Prod.fst) with
      | some n => exact ⟨n, rfl⟩
      | none =>
        obtain ⟨x, hx, hletter⟩ := (Edge.after_eq_none_iff _).1 he
        rw [hbefore x hx] at hletter
        cases hletter
    -- The pieces before the word, the word and the pieces behind it are tidy together.
    have htidy : Tidy (some 0) (cut (some 0) a ++ .word ((c, true) :: w) n :: cut none b) := by
      refine tidy_append.2 ⟨tidy_cut fun h => by simp at h, ?_⟩
      rw [textOf, marksOf_cut, hn]
      refine .word hname (tidy_cut fun _ m hm => hafter m.1 ?_)
      simp [Option.mem_def.1 hm]
    refine ⟨cut (some 0) a, .word ((c, true) :: w) n, cut none b, n, ?_, rfl, ?_, ?_⟩
    · rw [pieces, hab, ← htidy.cut_marksOf]
      simp [Piece.marks]
    · rw [textOf, marksOf_cut]
    · rw [textOf, marksOf_cut]
  · rintro ⟨qs, p, rs, n, hp, hx, rfl, rfl⟩
    obtain ⟨hedge, -, hrs⟩ := edge_of_pieces hp hx
    obtain ⟨c, w, rfl, rfl⟩ := Piece.codeWord?_eq_some hx
    have hmarks : text.zip (codeMask text) = marksOf qs ++ ((c, true) :: w ++ marksOf rs) := by
      rw [← marksOf_pieces, hp, marksOf_append, marksOf_cons, Piece.marks]
    refine ⟨?_, ?_, ?_, ?_⟩
    · rw [← textOf_pieces text, hp]
      simp [Piece.marks]
    · rw [← zip_codeMask_snd, hmarks]
      simp [textOf]
    · intro x hx
      by_contra hletter
      have := (Edge.after_eq_none_iff (textOf qs)).2 ⟨x, hx, by simpa using hletter⟩
      rw [hedge] at this
      cases this
    · intro x hx
      rw [textOf, List.head?_map] at hx
      obtain ⟨m, hm, rfl⟩ := Option.map_eq_some_iff.1 hx
      exact hrs.head_not_letter m hm

end Uplift.Rename
