-- Reading finds no more than was written. The ink of a text is the number of
-- its characters that are not blank, and the ink of an entry counts its comma
-- as well. The splitter sets down no more ink than it reads, an entry has no
-- more ink than the text it is read from, and where a key is written twice,
-- ink is lost.
import Mathlib.Algebra.Ring.Nat
import Uplift.Proofs.State.Colon
import Uplift.Proofs.State.Keys
import Uplift.Proofs.State.Layout

namespace Uplift

namespace Text

/-! ## The ink of a text -/

/-- The number of characters that are not blank. -/
def ink (t : Text) : Nat := t.countP fun c => !isBlank c

@[simp]
theorem ink_nil : ink [] = 0 := rfl

@[simp]
theorem ink_append (s t : Text) : ink (s ++ t) = ink s + ink t := List.countP_append

theorem ink_of_blank {t : Text} (h : isBlankText t = true) : ink t = 0 := by
  unfold ink
  rw [List.countP_eq_zero]
  intro c hc
  simp [isBlankText_iff.1 h c hc]

theorem ink_trim (t : Text) : ink (trim t) = ink t := by
  obtain ⟨l, r, ht, hl, hr, _⟩ := exists_pad t
  conv_rhs => rw [ht]
  simp [ink_of_blank hl, ink_of_blank hr]

theorem ink_trimEnd (t : Text) : ink (trimEnd t) = ink t := by
  obtain ⟨r, ht, hr, _⟩ := exists_trimEnd t
  conv_rhs => rw [ht]
  simp [ink_of_blank hr]

theorem ink_trimTerminator_le (t : Text) : ink (trimTerminator t) ≤ ink t := by
  unfold trimTerminator
  rw [ink_trimEnd, ← ink_trim t]
  exact (List.rdropWhile_prefix _ _).sublist.countP_le

end Text

namespace State

/-! ## The ink of an entry -/

/-- The ink of the entry, of its comment, and of the comma that ends it. -/
def RawEntry.ink (e : RawEntry) : Nat := Text.ink e.text + Text.ink (e.comment.getD []) + 1

def inkOf (es : List RawEntry) : Nat := (es.map RawEntry.ink).sum

@[simp]
theorem inkOf_nil : inkOf [] = 0 := rfl

@[simp]
theorem inkOf_cons (e : RawEntry) (es : List RawEntry) : inkOf (e :: es) = e.ink + inkOf es := by
  simp [inkOf]

@[simp]
theorem inkOf_append (es fs : List RawEntry) : inkOf (es ++ fs) = inkOf es + inkOf fs := by
  simp [inkOf]

theorem ink_joinComment (old : Option Text) (t : Text) :
    Text.ink (joinComment old t) = Text.ink (old.getD []) + Text.ink t := by
  cases old with
  | none => simp [joinComment]
  | some c =>
    rw [joinComment, show c ++ ' ' :: t = c ++ [' '] ++ t by simp, Text.ink_append, Text.ink_append]
    rfl

namespace Splitter

theorem inkOf_noteLast_le (t : Text) (es : List RawEntry) :
    inkOf (noteLast t es) ≤ inkOf es + Text.ink t := by
  rcases List.eq_nil_or_concat es with rfl | ⟨es, e, rfl⟩
  · simp [noteLast]
  · rw [List.concat_eq_append, noteLast_concat]
    simp [RawEntry.ink, ink_joinComment]
    omega

/-- The ink of all that is set down or still pending. -/
def ink (s : Splitter) : Nat :=
  inkOf s.done + Text.ink s.copied + Text.ink (s.comment.getD [])

theorem finishEntry_ink (s : Splitter) :
    inkOf s.finishEntry.done ≤ inkOf s.done + Text.ink s.current + Text.ink (s.comment.getD []) + 1 := by
  simp only [finishEntry]
  split_ifs
  · omega
  · simp [RawEntry.ink, Text.ink_trim]
    omega

theorem Copies.ink_eq {s s' : Splitter} {t : Text} (h : Copies s s' t) :
    s'.ink = s.ink + Text.ink t := by
  unfold ink
  rw [h.copied, h.done, h.comment, Text.ink_append]
  omega

theorem readCode_ink {s : Splitter} (hs : s.mode = .code) (c : Char) :
    (s.readCode c).ink ≤ s.ink + Text.ink [c] := by
  by_cases hcomma : c = ',' ∧ s.depth = 0
  · obtain ⟨rfl, hd⟩ := hcomma
    have hread : s.readCode ',' = { s.finishEntry with lineBroken := false } := by
      simp [readCode, isQuote, isOpener, isCloser, hd]
    have hfinish := s.finishEntry_ink
    have hcopied : s.copied = s.current := by simp [copied, pending, hs]
    have hempty : ({ s.finishEntry with lineBroken := false } : Splitter).copied = [] := by
      simp [copied, pending, finishEntry, hs]
    have hone : Text.ink [','] = 1 := rfl
    rw [hread, ink, ink, hcopied, hempty, hone]
    exact hfinish
  · exact (readCode_copies hs hcomma).ink_eq.le

theorem endComment_ink (s : Splitter) (read : Text) :
    (s.endComment read).ink ≤
      inkOf s.done + Text.ink s.current + Text.ink (s.comment.getD []) + Text.ink read := by
  have htrim := Text.ink_trimEnd read
  simp only [endComment]
  split_ifs
  · simp only [ink, copied, pending, push, Text.ink_append, htrim, List.append_nil]
    omega
  · simp only [ink, copied, pending, List.append_nil, Option.getD_some, ink_joinComment, htrim]
    omega
  · have hnote := inkOf_noteLast_le (Text.trimEnd read) s.done
    simp only [attachToLast_eq, ink, copied, pending, List.append_nil]
    omega
  · simp only [ink, copied, pending, List.append_nil]
    omega

/-- One character adds no more ink than it has. -/
theorem step_ink (s : Splitter) (c : Char) : (s.step c).ink ≤ s.ink + Text.ink [c] := by
  cases hm : s.mode with
  | code =>
    simp only [step, hm]
    exact readCode_ink hm c
  | slash =>
    simp only [step, hm]
    split_ifs with hslash hstar
    · exact Nat.le_of_eq (Copies.ink_eq ⟨by simp [copied, pending, hm, hslash], rfl, rfl⟩)
    · exact Nat.le_of_eq (Copies.ink_eq ⟨by simp [copied, pending, hm, hstar], rfl, rfl⟩)
    · have hsame : ({ s.push ['/'] with mode := .code } : Splitter).ink = s.ink := by
        simp [ink, copied, pending, hm]
      rw [← hsame]
      exact readCode_ink rfl c
  | quoted q =>
    simp only [step, hm]
    split_ifs <;>
      exact Nat.le_of_eq (Copies.ink_eq ⟨by simp [copied, pending, hm], rfl, rfl⟩)
  | escaped q =>
    simp only [step, hm]
    exact Nat.le_of_eq (Copies.ink_eq ⟨by simp [copied, pending, hm], rfl, rfl⟩)
  | lineComment read =>
    simp only [step, hm]
    split_ifs with hnl
    · have hend := s.endComment_ink read
      have hcode := readCode_ink (s.endComment_spot read).1 c
      have hink : s.ink = inkOf s.done + (Text.ink s.current + Text.ink read) +
          Text.ink (s.comment.getD []) := by simp [ink, copied, pending, hm]
      omega
    · exact Nat.le_of_eq (Copies.ink_eq ⟨by simp [copied, pending, hm], rfl, rfl⟩)
  | blockComment read star =>
    simp only [step, hm]
    split_ifs
    · have hend := s.endComment_ink (read ++ [c])
      have hink : s.ink = inkOf s.done + (Text.ink s.current + Text.ink read) +
          Text.ink (s.comment.getD []) := by simp [ink, copied, pending, hm]
      rw [Text.ink_append] at hend
      omega
    · exact Nat.le_of_eq (Copies.ink_eq ⟨by simp [copied, pending, hm], rfl, rfl⟩)

theorem foldl_ink (s : Splitter) (t : Text) : (t.foldl step s).ink ≤ s.ink + Text.ink t := by
  induction t generalizing s with
  | nil => simp
  | cons c t ih =>
    have hstep := s.step_ink c
    have hrest := ih (s.step c)
    rw [List.foldl_cons, show c :: t = [c] ++ t from rfl, Text.ink_append]
    omega

theorem settle_ink (s : Splitter) : s.settle.ink ≤ s.ink := by
  cases hm : s.mode with
  | slash =>
    simp only [settle, hm]
    exact Nat.le_of_eq (by simp [ink, copied, pending, hm])
  | lineComment read =>
    have hend := s.endComment_ink read
    simp only [settle, hm]
    simp only [ink, copied, pending, hm, Text.ink_append] at hend ⊢
    omega
  | blockComment read star =>
    have hend := s.endComment_ink read
    simp only [settle, hm]
    simp only [ink, copied, pending, hm, Text.ink_append] at hend ⊢
    omega
  | code => simp [settle, hm]
  | quoted q => simp [settle, hm]
  | escaped q => simp [settle, hm]

end Splitter

/-- What is set down has no more ink than the text, and a comma that the text may lack. -/
theorem splitEntries_ink (t : Text) : inkOf (splitEntries t) ≤ Text.ink t + 1 := by
  have hscan : (scanEntries t).ink ≤ 0 + Text.ink t := Splitter.foldl_ink {} t
  have hsettle := (scanEntries t).settle_ink
  have hfinish := (scanEntries t).settle.finishEntry_ink
  unfold splitEntries
  simp only [Splitter.ink, Splitter.copied, Text.ink_append] at hscan hsettle
  omega

/-! ## The ink of a state -/

/-- An entry has no more ink than the text it is read from. -/
theorem RawEntry.ink_toEntry? {raw : RawEntry} {e : Entry} (h : raw.toEntry? = some e) :
    e.raw.ink ≤ raw.ink := by
  obtain ⟨hcomment, ⟨hkey, hvalue⟩ | ⟨k, v, _, htext, hkey, hvalue, _, hne⟩⟩ :=
    RawEntry.toEntry?_cases h
  · simp [RawEntry.ink, Entry.raw, Entry.render_of_no_value hvalue, hkey, hcomment]
  · have hv := Text.ink_trimTerminator_le v
    have hk := Text.ink_trim k
    have hrender : Text.ink e.render = Text.ink e.key + 1 + Text.ink e.value := by
      rw [Entry.render_of_value hne, Text.ink_append, Text.ink_append]
      rfl
    have hraw : Text.ink raw.text = Text.ink k + 1 + Text.ink v := by
      rw [htext, show k ++ ':' :: v = k ++ [':'] ++ v by simp, Text.ink_append, Text.ink_append]
      rfl
    simp only [RawEntry.ink, Entry.raw, hcomment, hrender, hraw, hkey, hvalue]
    omega

theorem inkOf_filterMap_le (raws : List RawEntry) :
    inkOf ((raws.filterMap RawEntry.toEntry?).map Entry.raw) ≤ inkOf raws := by
  induction raws with
  | nil => simp
  | cons raw raws ih =>
    cases he : raw.toEntry? with
    | none =>
      rw [List.filterMap_cons_none he, inkOf_cons]
      omega
    | some e =>
      have hink := RawEntry.ink_toEntry? he
      rw [List.filterMap_cons_some he, List.map_cons, inkOf_cons, inkOf_cons]
      omega

/-- If no ink is lost, each entry is read from one text, with its comment. -/
theorem comments_of_ink {raws : List RawEntry}
    (h : inkOf raws ≤ inkOf ((raws.filterMap RawEntry.toEntry?).map Entry.raw)) :
    (raws.filterMap RawEntry.toEntry?).map (·.comment) = raws.map (·.comment) := by
  induction raws with
  | nil => rfl
  | cons raw raws ih =>
    have hrest := inkOf_filterMap_le raws
    cases he : raw.toEntry? with
    | none =>
      rw [List.filterMap_cons_none he, inkOf_cons, RawEntry.ink] at h
      omega
    | some e =>
      have hink := RawEntry.ink_toEntry? he
      rw [List.filterMap_cons_some he, List.map_cons, inkOf_cons, inkOf_cons] at h
      rw [List.filterMap_cons_some he, List.map_cons, List.map_cons, ih (by omega),
        (RawEntry.toEntry?_cases he).1]

theorem inkOf_putEntry_le (e : Entry) (es : List Entry) :
    inkOf ((putEntry e es).map Entry.raw) ≤ inkOf (es.map Entry.raw) + e.raw.ink := by
  induction es with
  | nil => simp [putEntry]
  | cons x rest ih =>
    unfold putEntry
    split_ifs
    · simp only [List.map_cons, inkOf_cons]
      omega
    · simp only [List.map_cons, inkOf_cons]
      omega

/-- An entry that takes the place of another loses ink. -/
theorem putEntry_of_ink {e : Entry} {es : List Entry}
    (h : inkOf (es.map Entry.raw) + e.raw.ink ≤ inkOf ((putEntry e es).map Entry.raw)) :
    putEntry e es = es ++ [e] := by
  induction es with
  | nil => rfl
  | cons x rest ih =>
    unfold putEntry at h ⊢
    split_ifs with hkey
    · rw [if_pos hkey] at h
      simp only [List.map_cons, inkOf_cons, RawEntry.ink] at h
      omega
    · rw [if_neg hkey] at h
      simp only [List.map_cons, inkOf_cons] at h
      rw [ih (by omega)]
      rfl

namespace Props

theorem inkOf_foldl_insertEntry_le (es : List Entry) (p : Props) :
    inkOf ((es.foldl insertEntry p).entries.map Entry.raw) ≤
      inkOf (p.entries.map Entry.raw) + inkOf (es.map Entry.raw) := by
  induction es generalizing p with
  | nil => simp
  | cons e es ih =>
    have hput := inkOf_putEntry_le e p.entries
    have hrest := ih (p.insertEntry e)
    rw [List.foldl_cons, List.map_cons, inkOf_cons]
    simp only [insertEntry] at hrest ⊢
    omega

theorem foldl_insertEntry_of_ink {es : List Entry} {p : Props}
    (h : inkOf (p.entries.map Entry.raw) + inkOf (es.map Entry.raw) ≤
      inkOf ((es.foldl insertEntry p).entries.map Entry.raw)) :
    (es.foldl insertEntry p).entries = p.entries ++ es := by
  induction es generalizing p with
  | nil => simp
  | cons e es ih =>
    have hput := inkOf_putEntry_le e p.entries
    have hrest := inkOf_foldl_insertEntry_le es (p.insertEntry e)
    rw [List.foldl_cons, List.map_cons, inkOf_cons] at h
    simp only [insertEntry] at hrest h
    have hnew : putEntry e p.entries = p.entries ++ [e] := putEntry_of_ink (by omega)
    rw [List.foldl_cons, ih]
    · simp [insertEntry, hnew]
    · simp only [insertEntry]
      omega

/-- If a state has all the ink of the entries it is made of, it has all those entries. -/
theorem ofEntries_of_ink {es : List Entry}
    (h : inkOf (es.map Entry.raw) ≤ inkOf ((ofEntries es).entries.map Entry.raw)) :
    (ofEntries es).entries = es := by
  have hall : (es.foldl insertEntry empty).entries = empty.entries ++ es :=
    foldl_insertEntry_of_ink (by simpa [empty, ofEntries] using h)
  simpa [empty, ofEntries] using hall

end Props

/-! ## The ink of a written state -/

theorem Entry.ink_tail (e : Entry) : Text.ink e.tail = Text.ink (e.comment.getD []) := by
  unfold tail
  cases e.comment with
  | none => rfl
  | some c =>
    have hspace : Text.ink ([' '] ++ c) = Text.ink c := by
      rw [Text.ink_append, show Text.ink [' '] = 0 from rfl, Nat.zero_add]
    exact hspace

theorem Entry.ink_line {lead : Text} (hlead : Text.isBlankText lead = true) (e : Entry) :
    Text.ink (e.line lead) = e.raw.ink := by
  have hcomma : ∀ t : Text, Text.ink (',' :: (t ++ ['\n'])) = Text.ink t + 1 := fun t => by
    rw [show ',' :: (t ++ ['\n']) = [','] ++ t ++ ['\n'] by simp, Text.ink_append, Text.ink_append,
      show Text.ink [','] = 1 from rfl, show Text.ink ['\n'] = 0 from rfl]
    omega
  simp only [line, Text.ink_append, hcomma, ink_tail, Text.ink_of_blank hlead, RawEntry.ink, raw]
  omega

/-- One line for each entry has all the ink of the entries but that of the last comma. -/
theorem ink_renderLines {lead : Text} (hlead : Text.isBlankText lead = true) {es : List Entry}
    (hes : es ≠ []) : Text.ink (renderLines lead es) + 1 = inkOf (es.map Entry.raw) := by
  induction es with
  | nil => exact absurd rfl hes
  | cons e es ih =>
    cases es with
    | nil =>
      rw [renderLines_singleton]
      simp only [Text.ink_append, Entry.ink_tail, Text.ink_of_blank hlead,
        show Text.ink ['\n'] = 0 from rfl, List.map_cons, List.map_nil, inkOf_cons, inkOf_nil,
        RawEntry.ink, Entry.raw]
      omega
    | cons x es =>
      have hrest := ih (by simp)
      have happend := renderLines_append lead [e] (List.cons_ne_nil x es)
      rw [List.singleton_append] at happend
      rw [happend, Text.ink_append, List.map_cons, inkOf_cons, List.flatMap_singleton,
        Entry.ink_line hlead]
      omega

end State

end Uplift
