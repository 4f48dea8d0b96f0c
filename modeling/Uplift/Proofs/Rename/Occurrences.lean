-- Where an identifier is replaced, told of the bytes of the text: wherever its
-- bytes begin in code, with neither a dot nor a letter before them and no letter
-- behind. Places are never inside a character, and no two of them overlap. So to
-- rename twice is to rename once, and a renaming onto a name that stood at no
-- such place can be taken back.
import Uplift.Proofs.Rename.Respelling
import Uplift.Proofs.Text.Bytes

namespace Uplift.Rename

open Text (bytes width)

/-! ## Bytes of identifiers -/

/-- A byte that an identifier can hold. -/
def isIdentByte (b : UInt8) : Bool :=
  ('0'.toUInt8 ≤ b && b ≤ '9'.toUInt8) || ('A'.toUInt8 ≤ b && b ≤ 'Z'.toUInt8) ||
    ('a'.toUInt8 ≤ b && b ≤ 'z'.toUInt8) || b == '_'.toUInt8 || b == '$'.toUInt8 || 128 ≤ b

theorem isIdentByte_ascii : ∀ n < 128,
    isIdentByte (UInt8.ofNat n) = isIdentChar (Char.ofNat n) ∧
      (UInt8.ofNat n = '.'.toUInt8 ↔ Char.ofNat n = '.') := by
  decide +kernel

/-- The bytes of a character beyond ASCII lie beyond it too. -/
theorem le_of_mem_utf8EncodeChar {c : Char} (hc : 128 ≤ c.toNat) {b : UInt8}
    (hb : b ∈ String.utf8EncodeChar c) : 128 ≤ b := by
  rw [UInt8.le_iff_toNat_le]
  have hval : c.toNat = c.val.toNat := rfl
  unfold String.utf8EncodeChar at hb
  simp only at hb
  split_ifs at hb with h1 h2 h3
  · omega
  all_goals
    simp only [List.mem_cons, List.not_mem_nil, or_false] at hb
    rcases hb with rfl | rfl | rfl | rfl <;> simp <;> omega

/-- A byte tells as much as its character whether it is a letter, and whether it is a dot. -/
theorem byte_of_char {c : Char} {b : UInt8} (hb : b ∈ String.utf8EncodeChar c) :
    isIdentByte b = isIdentChar c ∧ (b = '.'.toUInt8 ↔ c = '.') := by
  rcases Nat.lt_or_ge c.toNat 128 with hlt | hge
  · have hle : c.toNat ≤ 127 := Nat.le_of_lt_succ hlt
    have hb : b = UInt8.ofNat c.toNat := by simpa [String.utf8EncodeChar, hle] using hb
    have hascii := isIdentByte_ascii c.toNat hlt
    rwa [Char.ofNat_toNat, ← hb] at hascii
  · have hbyte := le_of_mem_utf8EncodeChar hge hb
    refine ⟨by simp [isIdentByte, isIdentChar, hbyte, hge], ?_, ?_⟩
    · rintro rfl
      exact absurd hbyte (by decide)
    · rintro rfl
      exact absurd hge (by decide)

/-! ## Places of a name -/

/-- An occurrence of `name` that is to be replaced begins at byte `p`: it begins in code, neither
a dot nor a letter stands before it, and no letter behind it. -/
@[mk_iff replaceableAt_iff_and]
structure ReplaceableAt (text name : Text) (p : Nat) : Prop where
  occurs : name.bytes <+: text.bytes.drop p
  code : (byteMask text)[p]? = some true
  before : p = 0 ∨ ∀ b ∈ text.bytes[p - 1]?, b ≠ '.'.toUInt8 ∧ isIdentByte b = false
  after : ∀ b ∈ text.bytes[p + name.bytes.length]?, isIdentByte b = false

instance (text name : Text) (p : Nat) : Decidable (ReplaceableAt text name p) :=
  decidable_of_iff
    (name.bytes <+: text.bytes.drop p ∧ (byteMask text)[p]? = some true ∧
      (p = 0 ∨ text.bytes[p - 1]?.all (fun b => b ≠ '.'.toUInt8 ∧ isIdentByte b = false) = true) ∧
      text.bytes[p + name.bytes.length]?.all (!isIdentByte ·) = true)
    (by simp only [replaceableAt_iff_and, Option.all_eq_true, Bool.not_eq_true', decide_eq_true_eq,
      Option.mem_def])

/-- The mask says the same of a character and of its first byte. -/
theorem byteMask_width {text pre post : Text} {c : Char} (h : text = pre ++ c :: post) :
    (byteMask text)[width pre]? = (codeMask text)[pre.length]? := by
  have hchars : (text.zip (codeMask text)).map Prod.fst = pre ++ c :: post := by
    rw [zip_codeMask, Reader.mark_fst, h]
  obtain ⟨a, b, hab, rfl, hb⟩ := List.map_eq_append_iff.1 hchars
  obtain ⟨⟨d, code⟩, b, rfl, hd, -⟩ := List.map_eq_cons_iff.1 hb
  have hwidth : (a.flatMap fun m => List.replicate m.1.utf8Size m.2).length =
      width (a.map Prod.fst) := by
    clear hab hchars h
    induction a with
    | nil => rfl
    | cons m a ih => simp [ih]
  have hfirst : (List.replicate d.utf8Size code)[0]? = some code := by
    simp [d.utf8Size_pos]
  rw [← zip_codeMask_snd, byteMask, hab, List.flatMap_append, ← hwidth,
    List.getElem?_append_right (Nat.le_refl _), Nat.sub_self, List.flatMap_cons,
    List.getElem?_append_left (by simp [d.utf8Size_pos]), hfirst]
  simp

theorem before_iff (pre rest : Text) :
    (width pre = 0 ∨ ∀ b ∈ (bytes (pre ++ rest))[width pre - 1]?,
        b ≠ '.'.toUInt8 ∧ isIdentByte b = false) ↔
      ∀ c ∈ pre.getLast?, c ≠ '.' ∧ isIdentChar c = false := by
  rcases List.eq_nil_or_concat' pre with rfl | ⟨pre, c, rfl⟩
  · simp
  · obtain ⟨b, hb, hbyte⟩ := Text.byte_before pre c rest
    obtain ⟨hletter, hdot⟩ := byte_of_char hb
    have hpos : width (pre ++ [c]) ≠ 0 := by
      have := c.utf8Size_pos
      simp only [Text.width_append, Text.width_cons]
      omega
    rw [or_iff_right hpos, hbyte]
    simp [hletter, hdot]

theorem after_iff (pre post : Text) :
    (∀ b ∈ (bytes (pre ++ post))[width pre]?, isIdentByte b = false) ↔
      ∀ c ∈ post.head?, isIdentChar c = false := by
  cases post with
  | nil => simp [← Text.length_bytes]
  | cons c post =>
    obtain ⟨b, hb, hbyte⟩ := Text.byte_behind pre c post
    rw [hbyte]
    simp [(byte_of_char hb).1]

/-- What is replaced are the words in code that no dot stands before. -/
theorem replaceableAt_iff_wordIn {text name : Text} (hname : IsWord name) {p : Nat} :
    ReplaceableAt text name p ↔
      ∃ pre post, WordIn text name pre post ∧ pre.getLast? ≠ some '.' ∧ width pre = p := by
  obtain ⟨d, tail, rfl⟩ := List.exists_cons_of_ne_nil hname.1
  constructor
  · rintro ⟨hoccurs, hcode, hbefore, hafter⟩
    obtain ⟨pre, post, hsplit, rfl⟩ := Text.split_of_bytes_prefix_drop hname.1 hoccurs
    have hcons : text = pre ++ d :: (tail ++ post) := by simp [hsplit]
    rw [byteMask_width hcons] at hcode
    rw [hcons, before_iff] at hbefore
    rw [hsplit, Text.length_bytes, ← Text.width_append, after_iff] at hafter
    exact ⟨pre, post, ⟨hsplit, hcode, fun c hc => (hbefore c hc).2, hafter⟩,
      fun hdot => (hbefore '.' hdot).1 rfl, rfl⟩
  · rintro ⟨pre, post, ⟨hsplit, hcode, hbefore, hafter⟩, hdot, rfl⟩
    have hcons : text = pre ++ d :: (tail ++ post) := by simp [hsplit]
    refine ⟨?_, ?_, ?_, ?_⟩
    · rw [hsplit, List.append_assoc, Text.bytes_append, ← Text.length_bytes, List.drop_left,
        Text.bytes_append]
      exact List.prefix_append _ _
    · rw [byteMask_width hcons]
      exact hcode
    · rw [hcons, before_iff]
      exact fun c hc => ⟨fun h => hdot (h ▸ hc), hbefore c hc⟩
    · rw [hsplit, Text.length_bytes, ← Text.width_append, after_iff]
      exact hafter

/-- Each place of a name is the place of a piece. -/
theorem replaceableAt_iff {text name : Text} (hname : IsWord name) {p : Nat} :
    ReplaceableAt text name p ↔
      ∃ qs q rs, pieces text = qs ++ q :: rs ∧ q.codeWord? = some (name, 0) ∧
        width (textOf qs) = p := by
  rw [replaceableAt_iff_wordIn hname]
  constructor
  · rintro ⟨pre, post, hword, hdot, rfl⟩
    obtain ⟨qs, q, rs, n, hp, hq, rfl, rfl⟩ := (wordIn_iff hname).1 hword
    obtain rfl : n = 0 := by
      by_contra hn
      exact hdot ((getLast?_eq_dot_iff hp hq).2 (Nat.pos_of_ne_zero hn))
    exact ⟨qs, q, rs, hp, hq, rfl⟩
  · rintro ⟨qs, q, rs, hp, hq, rfl⟩
    refine ⟨textOf qs, textOf rs, (wordIn_iff hname).2 ⟨qs, q, rs, 0, hp, hq, rfl, rfl⟩, ?_, rfl⟩
    intro hdot
    exact Nat.lt_irrefl 0 ((getLast?_eq_dot_iff hp hq).1 hdot)

/-! ## Every place, and nothing else -/

theorem isWord_iff_bytes {name : Text} :
    IsWord name ↔ name ≠ [] ∧ ∀ b ∈ name.bytes, isIdentByte b = true := by
  refine and_congr_right fun _ => ⟨?_, ?_⟩
  · intro h b hb
    obtain ⟨c, hc, hb⟩ := List.mem_flatMap.1 hb
    rw [(byte_of_char hb).1, h c hc]
  · intro h c hc
    obtain ⟨b, hb⟩ := List.exists_mem_of_ne_nil _ (String.utf8EncodeChar_ne_nil (c := c))
    rw [← (byte_of_char hb).1]
    exact h b (List.mem_flatMap.2 ⟨c, hc, hb⟩)

/-- A piece that holds a place is not followed by one that does. -/
theorem piece_holds {qs as rs rs' : List Piece} {p p' : Piece} {i : Nat}
    (h : p :: rs = as ++ p' :: rs') (hhi : i < width (textOf (qs ++ [p])))
    (hlo : width (textOf (qs ++ as)) ≤ i) : as = [] ∧ p = p' := by
  cases as with
  | nil => exact ⟨rfl, (List.cons.inj h).1⟩
  | cons a as =>
    obtain ⟨rfl, -⟩ := List.cons.inj h
    simp only [textOf_append, textOf_cons, textOf_nil, Text.width_append, Text.width_nil]
      at hhi hlo
    omega

/-- Two pieces that hold one place are the same. -/
theorem piece_unique {qs rs qs' rs' : List Piece} {p p' : Piece} {i : Nat}
    (h : qs ++ p :: rs = qs' ++ p' :: rs')
    (hlo : width (textOf qs) ≤ i) (hhi : i < width (textOf (qs ++ [p])))
    (hlo' : width (textOf qs') ≤ i) (hhi' : i < width (textOf (qs' ++ [p']))) :
    qs = qs' ∧ p = p' := by
  rcases List.append_eq_append_iff.1 h with ⟨as, rfl, hrs⟩ | ⟨as, rfl, hrs⟩
  · obtain ⟨rfl, rfl⟩ := piece_holds hrs hhi hlo'
    exact ⟨(List.append_nil qs).symm, rfl⟩
  · obtain ⟨rfl, rfl⟩ := piece_holds hrs hhi' hlo
    exact ⟨List.append_nil qs', rfl⟩

/-- The bytes of a list from a place on, one by one. -/
theorem flatMap_range' (l : List UInt8) (s n : Nat) :
    ((List.range' s n).flatMap fun i => l[i]?.toList) = (l.drop s).take n := by
  induction n generalizing s with
  | zero => simp
  | succ n ih =>
    rw [List.range'_succ, List.flatMap_cons, ih]
    rcases Nat.lt_or_ge s l.length with hlt | hge
    · rw [List.drop_eq_getElem_cons hlt, List.take_succ_cons, List.getElem?_eq_getElem hlt]
      rfl
    · simp [List.drop_of_length_le hge, hge]
      omega

/-- What stands for byte `i` of `text` when `name` is replaced. -/
def replacement (text name target : Text) (i : Nat) : List UInt8 :=
  if ReplaceableAt text name i then target.bytes
  else if ∃ p < i, ReplaceableAt text name p ∧ i < p + name.bytes.length then []
  else text.bytes[i]?.toList

section

variable {text name : Text} {qs rs : List Piece} {p : Piece}

/-- An occurrence that is replaced and that reaches into a piece is the piece. -/
theorem eq_of_reaches (hname : IsWord name) (hp : pieces text = qs ++ p :: rs) {i q : Nat}
    (hq : ReplaceableAt text name q) (hqi : q ≤ i) (hiq : i < q + name.bytes.length)
    (hlo : width (textOf qs) ≤ i) (hhi : i < width (textOf (qs ++ [p]))) :
    q = width (textOf qs) ∧ p.codeWord? = some (name, 0) := by
  obtain ⟨qs', p', rs', hp', hword, rfl⟩ := (replaceableAt_iff hname).1 hq
  obtain ⟨c, w, rfl, rfl⟩ := Piece.codeWord?_eq_some hword
  rw [hp] at hp'
  have hend : i < width (textOf (qs' ++ [.word ((c, true) :: w) 0])) := by
    simpa [Piece.marks] using hiq
  obtain ⟨rfl, rfl⟩ := piece_unique hp' hlo hhi hqi hend
  exact ⟨rfl, hword⟩

/-- The bytes of a word that is renamed are replaced together. -/
theorem flatMap_replacement_hit (hname : IsWord name) (hp : pieces text = qs ++ p :: rs)
    (hhit : p.codeWord? = some (name, 0)) (target : Text) :
    (List.range' (width (textOf qs)) (width (textOf [p]))).flatMap
      (replacement text name target) = target.bytes := by
  have hrep : ReplaceableAt text name (width (textOf qs)) :=
    (replaceableAt_iff hname).2 ⟨qs, p, rs, hp, hhit, rfl⟩
  have hlen : width (textOf [p]) = name.bytes.length := by
    obtain ⟨c, w, rfl, rfl⟩ := Piece.codeWord?_eq_some hhit
    simp [Piece.marks]
  obtain ⟨k, hk⟩ : ∃ k, name.bytes.length = k + 1 :=
    Nat.exists_eq_succ_of_ne_zero (Nat.ne_of_gt (Text.length_bytes_pos hname.1))
  have hrest : ∀ i ∈ List.range' (width (textOf qs) + 1) k,
      replacement text name target i = [] := by
    intro i hi
    rw [List.mem_range'_1] at hi
    have hinside : i < width (textOf (qs ++ [p])) := by
      rw [textOf_append, Text.width_append, hlen, hk]
      omega
    have hnot : ¬ ReplaceableAt text name i := fun hi' => by
      have := (eq_of_reaches hname hp hi' (Nat.le_refl i) (by omega) (by omega) hinside).1
      omega
    rw [replacement, if_neg hnot, if_pos ⟨_, by omega, hrep, by omega⟩]
  rw [hlen, hk, List.range'_succ, List.flatMap_cons, List.flatMap_congr hrest, replacement,
    if_pos hrep]
  simp

/-- The bytes of any other piece are copied. -/
theorem flatMap_replacement_miss (hname : IsWord name) (hp : pieces text = qs ++ p :: rs)
    (hmiss : p.codeWord? ≠ some (name, 0)) (target : Text) :
    (List.range' (width (textOf qs)) (width (textOf [p]))).flatMap
      (replacement text name target) = bytes (textOf [p]) := by
  have hpos := Text.length_bytes_pos hname.1
  have hcopy : ∀ i ∈ List.range' (width (textOf qs)) (width (textOf [p])),
      replacement text name target i = text.bytes[i]?.toList := by
    intro i hi
    rw [List.mem_range'_1] at hi
    have hinside : i < width (textOf (qs ++ [p])) := by
      rw [textOf_append, Text.width_append]
      exact hi.2
    rw [replacement, if_neg, if_neg]
    · rintro ⟨q, hqi, hq, hiq⟩
      exact hmiss (eq_of_reaches hname hp hq hqi.le hiq hi.1 hinside).2
    · intro hq
      exact hmiss (eq_of_reaches hname hp hq (Nat.le_refl i) (by omega) hi.1 hinside).2
  have htext : text = textOf qs ++ (textOf [p] ++ textOf rs) := by
    conv_lhs => rw [← textOf_pieces text, hp]
    simp
  rw [List.flatMap_congr hcopy, flatMap_range', htext, Text.bytes_append, Text.bytes_append,
    ← Text.length_bytes (textOf qs), List.drop_left, ← Text.length_bytes, List.take_left]

/-- Piece by piece, the bytes of the text are replaced as the piece is respelled. -/
theorem flatMap_replacement (hname : IsWord name) (hp : pieces text = qs ++ rs) (target : Text) :
    (List.range' (width (textOf qs)) (width (textOf rs))).flatMap (replacement text name target) =
      bytes (textOf (rs.map (Piece.respell name target))) := by
  induction rs generalizing qs with
  | nil => simp
  | cons p rs ih =>
    have hp' : pieces text = (qs ++ [p]) ++ rs := by
      rw [hp, List.append_assoc, List.singleton_append]
    have hrest := ih hp'
    have hpiece : (List.range' (width (textOf qs)) (width (textOf [p]))).flatMap
        (replacement text name target) = bytes (textOf [p.respell name target]) := by
      rw [Piece.respell]
      split
      · rename_i hhit
        rw [flatMap_replacement_hit hname hp hhit]
        simp [Piece.marks, Function.comp_def]
      · rename_i hmiss
        exact flatMap_replacement_miss hname hp hmiss target
    rw [← List.singleton_append, textOf_append, Text.width_append, ← List.range'_append_1,
      List.flatMap_append, hpiece, List.map_append, textOf_append, Text.bytes_append, ← hrest,
      textOf_append, Text.width_append]
    rfl

/-- Two occurrences that are replaced do not overlap. -/
theorem ReplaceableAt.apart (hletters : ∀ b ∈ name.bytes, isIdentByte b = true) {q : Nat} {p : Nat}
    (hp : ReplaceableAt text name p) (hq : ReplaceableAt text name q) (hlt : p < q) :
    p + name.bytes.length ≤ q := by
  by_contra hover
  -- Otherwise a letter of the first stands right before the second.
  obtain ⟨x, hx⟩ := hp.occurs
  have hinside : q - 1 - p < name.bytes.length := by omega
  have hbyte : (name.bytes ++ x)[q - 1 - p]? = name.bytes[q - 1 - p]? :=
    List.getElem?_append_left hinside
  rw [hx, List.getElem?_drop, show p + (q - 1 - p) = q - 1 by omega,
    List.getElem?_eq_getElem hinside] at hbyte
  rcases hq.before with hzero | hbefore
  · omega
  · have hletter := (hbefore _ hbyte).2
    rw [hletters _ (List.getElem_mem hinside)] at hletter
    cases hletter

end

/-- Renaming puts the new name in the place of every occurrence that begins in code, with neither
a dot nor a letter before it and no letter behind it; no two of these overlap, and every other
byte is copied once and in order. -/
theorem every_free_occurrence_is_renamed (text name target : Text) (hname : name ≠ [])
    (hletters : ∀ b ∈ name.bytes, isIdentByte b = true) :
    (renameIdentifier text name target).bytes =
        (List.range text.bytes.length).flatMap (replacement text name target) ∧
      ∀ p q, ReplaceableAt text name p → ReplaceableAt text name q → p < q →
        p + name.bytes.length ≤ q := by
  have hword : IsWord name := isWord_iff_bytes.2 ⟨hname, hletters⟩
  have hall := flatMap_replacement hword (List.nil_append (pieces text)).symm target
  rw [textOf_pieces, ← Text.length_bytes text] at hall
  refine ⟨?_, fun p q hp hq => hp.apart hletters hq⟩
  rw [renameIdentifier_eq hword, ← hall, List.range_eq_range']
  rfl

/-- A name that overlaps itself, behind a letter of two bytes, behind dots, in quotes and in a
template. -/
def overlapping : Text := "aaa éaa aa.aa 'aa' `aa${aa}`".toList

/-- Of the many occurrences, two are renamed. -/
theorem overlapping_is_renamed :
    "aa".toList ≠ [] ∧ (∀ b ∈ bytes "aa".toList, isIdentByte b = true) ∧
      (List.range 29).filter (fun p => decide (ReplaceableAt overlapping "aa".toList p)) = [9, 25] ∧
      renameIdentifier overlapping "aa".toList "b".toList = "aaa éaa b.aa 'aa' `aa${b}`".toList ∧
      (renameIdentifier overlapping "aa".toList "b".toList).bytes =
        (List.range overlapping.bytes.length).flatMap
          (replacement overlapping "aa".toList "b".toList) := by
  have hne : "aa".toList ≠ [] := by decide
  have hletters : ∀ b ∈ bytes "aa".toList, isIdentByte b = true := List.all_eq_true.1 (by decide)
  exact ⟨hne, hletters, by decide +kernel, by decide +kernel,
    (every_free_occurrence_is_renamed overlapping "aa".toList "b".toList hne hletters).1⟩

/-! ## Renaming again, and back -/

section

variable {name target : Text}

/-- A word that is called otherwise is not respelled again. -/
theorem Piece.respell_respell (htarget : target ≠ []) (hne : name ≠ target) (p : Piece) :
    (p.respell name target).respell name target = p.respell name target := by
  have hdone : (p.respell name target).codeWord? ≠ some (name, 0) := by
    rw [codeWord?_respell htarget]
    split
    · exact fun h => hne (Prod.mk.inj (Option.some.inj h)).1.symm
    · assumption
  rw [respell, if_neg hdone]

/-- A word that was called otherwise is spelled as before when it is respelled back. -/
theorem Piece.respell_back (htarget : target ≠ []) {p : Piece}
    (hfree : p.codeWord? ≠ some (target, 0)) :
    textOf [(p.respell name target).respell target name] = textOf [p] := by
  by_cases hhit : p.codeWord? = some (name, 0)
  · have hback : (p.respell name target).codeWord? = some (target, 0) := by
      rw [codeWord?_respell htarget, if_pos hhit]
    obtain ⟨c, w, rfl, rfl⟩ := codeWord?_eq_some hhit
    rw [respell, if_pos hback]
    simp [marks, Function.comp_def]
  · have hsame : p.respell name target = p := by rw [respell, if_neg hhit]
    rw [hsame, respell, if_neg hfree]

theorem textOf_map_eq {f : Piece → Piece} {ps : List Piece}
    (h : ∀ p ∈ ps, textOf [f p] = textOf [p]) : textOf (ps.map f) = textOf ps := by
  induction ps with
  | nil => rfl
  | cons p ps ih =>
    have hp := h p List.mem_cons_self
    have hps := ih fun q hq => h q (List.mem_cons_of_mem p hq)
    rw [List.map_cons, ← List.singleton_append, textOf_append, hp, hps, ← textOf_append,
      List.singleton_append]

end

/-- To rename twice is to rename once; and where the new name was not called before, renaming it
back gives the text again. -/
theorem renaming_settles_and_can_be_taken_back (text name target : Text) (hname : IsWord name)
    (htarget : IsWord target) (hne : name ≠ target) :
    renameIdentifier (renameIdentifier text name target) name target =
        renameIdentifier text name target ∧
      ((∀ p, ¬ ReplaceableAt text target p) →
        renameIdentifier (renameIdentifier text name target) target name = text) := by
  have hpieces := pieces_renameIdentifier hname htarget text
  constructor
  · rw [renameIdentifier_eq hname (renameIdentifier text name target), hpieces, List.map_map,
      renameIdentifier_eq hname text]
    congr 2
    exact funext fun p => p.respell_respell htarget.1 hne
  · intro hfree
    rw [renameIdentifier_eq htarget, hpieces, List.map_map]
    conv_rhs => rw [← textOf_pieces text]
    refine textOf_map_eq fun p hp => Piece.respell_back htarget.1 fun hhit => ?_
    obtain ⟨qs, rs, hsplit⟩ := List.append_of_mem hp
    exact hfree _ ((replaceableAt_iff htarget).2 ⟨qs, p, rs, hsplit, hhit, rfl⟩)

theorem ReplaceableAt.lt_length {text name : Text} {p : Nat} (hname : name ≠ [])
    (h : ReplaceableAt text name p) : p < text.bytes.length := by
  have hle := h.occurs.length_le
  have hpos := Text.length_bytes_pos hname
  rw [List.length_drop] at hle
  omega

/-- The two that are renamed can be renamed back, since nothing was called by the new name. -/
theorem overlapping_is_renamed_back :
    (IsWord "aa".toList ∧ IsWord "b".toList ∧ "aa".toList ≠ "b".toList) ∧
      (∀ p, ¬ ReplaceableAt overlapping "b".toList p) ∧
      renameIdentifier (renameIdentifier overlapping "aa".toList "b".toList)
          "aa".toList "b".toList = renameIdentifier overlapping "aa".toList "b".toList ∧
      renameIdentifier (renameIdentifier overlapping "aa".toList "b".toList)
          "b".toList "aa".toList = overlapping := by
  have hword : IsWord "aa".toList ∧ IsWord "b".toList ∧ "aa".toList ≠ "b".toList := by decide
  have hfree : ∀ p, ¬ ReplaceableAt overlapping "b".toList p := by
    intro p hp
    have hnone : ∀ q < 29, ¬ ReplaceableAt overlapping "b".toList q := by decide +kernel
    exact hnone p (hp.lt_length (by decide)) hp
  obtain ⟨hagain, hback⟩ := renaming_settles_and_can_be_taken_back overlapping "aa".toList
    "b".toList hword.1 hword.2.1 hword.2.2
  exact ⟨hword, hfree, hagain, hback hfree⟩

end Uplift.Rename
