-- The commas of a nested text that are code outside all brackets and
-- substitutions, and the parts of the text between them. What a tree says of the
-- parts is told along its outermost row: only a comma there ends a part, and
-- everything else is joined to the part that it stands before.
import Uplift.Proofs.Rename.Structure
import Uplift.Proofs.State.Cuts

namespace Uplift.State

open Nesting
open Text (isBlank)

/-! ## The commas of a tree -/

/-- A comma of code, outside all brackets and substitutions. -/
def isTopComma (k : Cell) : Bool := k.code && k.char == ',' && k.depth == 0

/-- For each character of the text, whether it is a comma that the mask has as code, outside all
brackets and substitutions. -/
def topCommas (code : Code) : List Bool :=
  List.zipWith (fun mark k => mark && k.char == ',' && k.depth == 0)
    (Rename.codeMask code.text) (code.cells 0)

/-- The parts of the text between those commas. -/
def partsOf (code : Code) : List Text := slices (code.text.zip (topCommas code))

/-- A character, and whether it is such a comma. -/
def commaOf (k : Cell) : Char × Bool := (k.char, isTopComma k)

theorem topCommas_eq {x : Dialect} {code : Code} (h : code.isLexical x = true) :
    topCommas code = (code.cells 0).map isTopComma := by
  unfold topCommas
  rw [Rename.codeMask_text h 0, List.zipWith_map_left, List.zipWith_self]
  rfl

theorem zip_topCommas {x : Dialect} {code : Code} (h : code.isLexical x = true) :
    code.text.zip (topCommas code) = (code.cells 0).map commaOf := by
  rw [topCommas_eq h, ← code.map_char_cells 0, List.zip_map']
  rfl

theorem eq_comma_of_mem_commaOf {ks : List Cell} :
    ∀ p ∈ ks.map commaOf, p.2 = true → p.1 = ',' := by
  intro p hp hmark
  obtain ⟨k, _, rfl⟩ := List.mem_map.1 hp
  simp only [commaOf, isTopComma, Bool.and_eq_true, beq_iff_eq] at hmark
  exact hmark.1.2

theorem isTopComma_inert (depth : Nat) (t : Text) :
    ∀ k ∈ inert depth t, isTopComma k = false := by
  intro k hk
  obtain ⟨c, _, rfl⟩ := List.mem_map.1 hk
  rfl

mutual

/-- What stands in a piece of code stands no less deep than the piece. -/
theorem le_depth_code (depth : Nat) (code : Code) : ∀ k ∈ code.cells depth, depth ≤ k.depth := by
  cases code with
  | done => simp [Code.cells]
  | char c rest => simpa [Code.cells] using le_depth_code depth rest
  | string quote letters rest =>
    have hrest := le_depth_code depth rest
    simp only [Code.cells, List.forall_mem_append]
    exact ⟨by simp [inert], hrest⟩
  | template body rest =>
    have hbody := le_depth_template depth body
    have hrest := le_depth_code depth rest
    simp only [Code.cells, List.cons_append, List.forall_mem_cons, List.forall_mem_append]
    exact ⟨Nat.le_refl _, fun k hk => (hbody k hk).1, Nat.le_refl _, hrest⟩
  | lineComment body rest =>
    have hrest := le_depth_code depth rest
    simp only [Code.cells, List.forall_mem_cons, List.forall_mem_append]
    exact ⟨by simp [inert], Nat.le_refl _, hrest⟩
  | blockComment body rest =>
    have hrest := le_depth_code depth rest
    simp only [Code.cells, List.forall_mem_append]
    exact ⟨by simp [inert], hrest⟩
  | group bracket inner rest =>
    have hinner := le_depth_code (depth + 1) inner
    have hrest := le_depth_code depth rest
    simp only [Code.cells, List.cons_append, List.forall_mem_cons, List.forall_mem_append]
    exact ⟨Nat.le_refl _, fun k hk => Nat.le_of_succ_le (hinner k hk), Nat.le_refl _, hrest⟩

theorem le_depth_template (depth : Nat) (body : Template) :
    ∀ k ∈ body.cells depth, depth ≤ k.depth ∧ (k.code = true → depth < k.depth) := by
  cases body with
  | done => simp [Template.cells]
  | letter l rest =>
    have hrest := le_depth_template depth rest
    simp only [Template.cells, List.forall_mem_append]
    exact ⟨by simp [inert], hrest⟩
  | substitution inner rest =>
    have hinner := le_depth_code (depth + 1) inner
    have hrest := le_depth_template depth rest
    simp only [Template.cells, List.forall_mem_cons, List.forall_mem_append]
    refine ⟨⟨by simp [inert], fun k hk => ?_⟩, by simp, hrest⟩
    have hdeep := hinner k hk
    exact ⟨Nat.le_of_succ_le hdeep, fun _ => hdeep⟩

end

/-! ## The parts of a tree -/

theorem slices_front {front : List Cell} (h : ∀ k ∈ front, isTopComma k = false)
    (ks : List Cell) : slices ((front ++ ks).map commaOf) =
      (slices (ks.map commaOf)).modifyHead (front.map (·.char) ++ ·) := by
  have hfront : ∀ p ∈ front.map commaOf, p.2 = false := by
    intro p hp
    obtain ⟨k, hk, rfl⟩ := List.mem_map.1 hp
    exact h k hk
  rw [List.map_append, slices_append hfront, List.map_map]
  rfl

/-- The parts of the text between the commas of the tree. -/
def treeParts (code : Code) : List Text := slices ((code.cells 0).map commaOf)

theorem partsOf_eq {x : Dialect} {code : Code} (h : code.isLexical x = true) :
    partsOf code = treeParts code := by
  rw [partsOf, zip_topCommas h, treeParts]

theorem treeParts_comma (rest : Code) : treeParts (.char ',' rest) = [] :: treeParts rest :=
  slices_marked ',' _

theorem treeParts_char {c : Char} (hc : c ≠ ',') (rest : Code) :
    treeParts (.char c rest) = (treeParts rest).modifyHead (c :: ·) := by
  have hfront : ∀ k ∈ [(⟨c, true, 0⟩ : Cell)], isTopComma k = false := by
    simp [isTopComma, hc]
  exact slices_front hfront (rest.cells 0)

theorem treeParts_string (quote : Char) (letters : List Letter) (rest : Code) :
    treeParts (.string quote letters rest) =
      (treeParts rest).modifyHead (quotedText quote letters ++ ·) := by
  have hparts := slices_front (isTopComma_inert 0 (quotedText quote letters)) (rest.cells 0)
  rwa [map_char_inert] at hparts

theorem treeParts_template (body : Template) (rest : Code) :
    treeParts (.template body rest) =
      (treeParts rest).modifyHead ('`' :: body.text ++ ['`'] ++ ·) := by
  have hfront : ∀ k ∈ (⟨'`', false, 0⟩ : Cell) :: body.cells 0 ++ [⟨'`', false, 0⟩],
      isTopComma k = false := by
    simp only [List.cons_append, List.forall_mem_cons, List.forall_mem_append]
    refine ⟨rfl, fun k hk => ?_, by simp [isTopComma]⟩
    have hdeep := (le_depth_template 0 body k hk).2
    unfold isTopComma
    cases hcode : k.code with
    | false => rfl
    | true => simp [Nat.ne_of_gt (hdeep hcode)]
  have hparts := slices_front hfront (rest.cells 0)
  simp only [List.map_append, List.map_cons, List.map_nil, Template.map_char_cells] at hparts
  simpa [treeParts, Code.cells] using hparts

theorem treeParts_group (bracket : Bracket) (inner rest : Code) :
    treeParts (.group bracket inner rest) =
      (treeParts rest).modifyHead (bracket.opener :: inner.text ++ [bracket.closer] ++ ·) := by
  have hfront : ∀ k ∈ (⟨bracket.opener, true, 0⟩ : Cell) :: inner.cells 1 ++
      [⟨bracket.closer, true, 0⟩], isTopComma k = false := by
    simp only [List.cons_append, List.forall_mem_cons, List.forall_mem_append]
    refine ⟨by cases bracket <;> rfl, fun k hk => ?_, by cases bracket <;> rfl, by simp⟩
    have hdeep := le_depth_code 1 inner k hk
    simp [isTopComma, Nat.ne_of_gt hdeep]
  have hparts := slices_front hfront (rest.cells 0)
  simp only [List.map_append, List.map_cons, List.map_nil, Code.map_char_cells] at hparts
  simpa [treeParts, Code.cells] using hparts

/-- The first part is what the text starts with. -/
theorem prefix_of_head_treeParts {code : Code} {e : Text}
    (he : (treeParts code).head? = some e) : e <+: code.text := by
  have hprefix := prefix_of_head_slices he
  rw [List.map_map] at hprefix
  rwa [← code.map_char_cells 0]

theorem forall_mem_modifyHead {P : Text → Prop} {f : Text → Text} {l : List Text}
    (hl : ∀ e ∈ l, P e) (hf : ∀ e, l.head? = some e → P (f e)) : ∀ e ∈ l.modifyHead f, P e := by
  cases l with
  | nil => simp
  | cons x l =>
    rw [List.forall_mem_cons] at hl
    rw [List.modifyHead_cons, List.forall_mem_cons]
    exact ⟨hf x rfl, hl.2⟩

theorem startsEntry_cons {c : Char} {t : Text} (ht : startsEntry t = true) (hc : c ≠ ',')
    (hpair : opensComment c t = false) : startsEntry (c :: t) = true := by
  unfold startsEntry Text.trimStart at *
  cases hblank : isBlank c with
  | true => simpa [List.dropWhile_cons, hblank] using ht
  | false => simp [hblank, hc, hpair]

/-- A text that starts with a quote or a bracket starts an entry. -/
theorem startsEntry_of_opener {c : Char} (hc : isQuote c = true ∨ isOpener c = true) (t : Text) :
    startsEntry (c :: t) = true := by
  have hsolid : isBlank c = false ∧ c ≠ ',' ∧ c ≠ '/' := by
    simp only [isQuote, isOpener, Bool.or_eq_true, beq_iff_eq] at hc
    rcases hc with ((rfl | rfl) | rfl) | ((rfl | rfl) | rfl) <;> decide
  simp [startsEntry, Text.trimStart, opensComment, hsolid]

theorem opensComment_of_start {c : Char} {s t : Text} (h : s <+: t)
    (ht : opensComment c t = false) : opensComment c s = false := by
  obtain ⟨u, rfl⟩ := h
  cases s with
  | nil => simp [opensComment]
  | cons d s => exact ht

theorem isQuote_of_string {quote : Char} (h : quote = '\'' ∨ quote = '"') :
    isQuote quote = true := by
  rcases h with rfl | rfl <;> rfl

theorem isOpener_opener (bracket : Bracket) : isOpener bracket.opener = true := by
  cases bracket <;> rfl

/-- Every part of a tree without comments starts an entry. -/
theorem startsEntry_treeParts (code : Code) (h : code.isLexical .literal = true) :
    ∀ e ∈ treeParts code, startsEntry e = true := by
  cases code with
  | done =>
    simp only [treeParts, Code.cells, List.map_nil, slices_nil]
    exact List.forall_mem_singleton.2 rfl
  | char c rest =>
    obtain ⟨_, hpair, hrest⟩ := Code.isLexical_char.1 h
    have ih := startsEntry_treeParts rest hrest
    by_cases hc : c = ','
    · rw [hc, treeParts_comma]
      exact List.forall_mem_cons.2 ⟨rfl, ih⟩
    · rw [treeParts_char hc]
      refine forall_mem_modifyHead ih fun e he => ?_
      have hstart := ih e (List.mem_of_mem_head? he)
      exact startsEntry_cons hstart hc (opensComment_of_start (prefix_of_head_treeParts he) hpair)
  | string quote letters rest =>
    obtain ⟨hquote, _, hrest⟩ := Code.isLexical_string.1 h
    rw [treeParts_string]
    exact forall_mem_modifyHead (startsEntry_treeParts rest hrest) fun e _ =>
      startsEntry_of_opener (Or.inl (isQuote_of_string hquote)) _
  | template body rest =>
    obtain ⟨_, hrest⟩ := Code.isLexical_template.1 h
    rw [treeParts_template]
    exact forall_mem_modifyHead (startsEntry_treeParts rest hrest) fun e _ =>
      startsEntry_of_opener (Or.inl rfl) _
  | lineComment body rest => exact absurd (Code.isLexical_lineComment.1 h).1 Bool.false_ne_true
  | blockComment body rest => exact absurd (Code.isLexical_blockComment.1 h).1 Bool.false_ne_true
  | group bracket inner rest =>
    obtain ⟨_, hrest⟩ := Code.isLexical_group.1 h
    rw [treeParts_group]
    exact forall_mem_modifyHead (startsEntry_treeParts rest hrest) fun e _ =>
      startsEntry_of_opener (Or.inr (isOpener_opener bracket)) _

end Uplift.State
