-- Splitting on either side of a comma. Behind a comma the splitter starts anew,
-- but for two things: entries are set down already, and no line is broken yet.
-- Both are only seen by a comment that comes before any text of an entry. So
-- what follows a comma is split as it is by itself, unless a comment or another
-- comma leads it.
import Uplift.Proofs.Nesting.Tree
import Uplift.Proofs.State.Reading

namespace Uplift.State

open Nesting (opensComment)
open Text (isBlank isBlankText)

namespace Splitter

/-! ## Behind other entries -/

/-- The splitter behind the entries of `front`, with a line break before it or none. -/
def ahead (front : List RawEntry) (broken : Bool) (s : Splitter) : Splitter :=
  { s with done := front ++ s.done, lineBroken := broken }

/-- A comment finds the splitter in the same position behind other entries: where no text of an
entry is read, an entry is set down, and the line is broken or not as it is there. -/
def Settled (s : Splitter) (broken : Bool) : Prop :=
  isBlankText s.current = true → s.done ≠ [] ∧ broken = s.lineBroken

section Ahead

variable {front : List RawEntry} {broken : Bool} {s : Splitter}

theorem settled_of_text (h : isBlankText s.current = false) : Settled s broken := by
  intro hblank
  rw [h] at hblank
  cases hblank

/-- Text that is read keeps the position. -/
theorem Settled.push (h : Settled s broken) (t : Text) {s' : Splitter} (hdone : s'.done = s.done)
    (hline : s'.lineBroken = s.lineBroken) (hcurrent : s'.current = s.current ++ t) :
    Settled s' broken := by
  intro hblank
  rw [hcurrent] at hblank
  rw [hdone, hline]
  exact h (Text.isBlankText_append.1 hblank).1

theorem finishEntry_ahead (front : List RawEntry) (broken : Bool) (s : Splitter) :
    (s.ahead front broken).finishEntry = s.finishEntry.ahead front broken := by
  by_cases hempty : (Text.trim s.current).isEmpty = true
  · simp [finishEntry, ahead, hempty]
  · simp [finishEntry, ahead, hempty]

/-- An entry is set down, unless it is blank and others are set down already. -/
theorem Settled.finishEntry_done (h : Settled s broken) : s.finishEntry.done ≠ [] := by
  simp only [finishEntry]
  split_ifs with hempty
  · exact (h (Text.trim_eq_nil_iff.1 (List.isEmpty_iff.1 hempty))).1
  · simp

/-- One character of code is read in the same way behind other entries. -/
theorem readCode_ahead (front : List RawEntry) (broken : Bool) (s : Splitter) (c : Char) :
    ∃ broken', (s.ahead front broken).readCode c = (s.readCode c).ahead front broken' ∧
      (Settled s broken → Settled (s.readCode c) broken') := by
  have hdepth : (s.ahead front broken).depth = s.depth := rfl
  unfold readCode
  rw [finishEntry_ahead, hdepth]
  split_ifs
  · exact ⟨broken, rfl, fun h => h.push [] rfl rfl (by simp)⟩
  · exact ⟨broken, rfl, fun h => h.push [c] rfl rfl rfl⟩
  · exact ⟨broken, rfl, fun h => h.push [c] rfl rfl rfl⟩
  · exact ⟨broken, rfl, fun h => h.push [c] rfl rfl rfl⟩
  · exact ⟨false, rfl, fun h _ => ⟨h.finishEntry_done, rfl⟩⟩
  · exact ⟨true, rfl, fun h hblank => ⟨(h (Text.isBlankText_append.1 hblank).1).1, rfl⟩⟩
  · exact ⟨broken, rfl, fun h => h.push [c] rfl rfl rfl⟩

theorem noteLast_append {es : List RawEntry} (front : List RawEntry) (t : Text) (h : es ≠ []) :
    noteLast t (front ++ es) = front ++ noteLast t es ∧ noteLast t es ≠ [] := by
  obtain ⟨es, e, rfl⟩ := (List.eq_nil_or_concat' es).resolve_left h
  rw [← List.append_assoc, noteLast_concat, noteLast_concat]
  exact ⟨by simp, by simp⟩

/-- A comment goes to the same place behind other entries. -/
theorem endComment_ahead (front : List RawEntry) (read : Text) (h : Settled s broken) :
    (s.ahead front broken).endComment read = (s.endComment read).ahead front broken ∧
      Settled (s.endComment read) broken := by
  by_cases hd : s.depth = 0
  · cases hb : isBlankText s.current with
    | false =>
      rw [endComment_own read hd hb, endComment_own (s := s.ahead front broken) read hd hb]
      exact ⟨rfl, settled_of_text hb⟩
    | true =>
      obtain ⟨hdone, hline⟩ := h hb
      cases hl : s.lineBroken with
      | true =>
        rw [endComment_lost read hd hb hl,
          endComment_lost (s := s.ahead front broken) read hd hb (hline.trans hl)]
        exact ⟨rfl, h⟩
      | false =>
        obtain ⟨hlast, hne⟩ := noteLast_append front (Text.trimEnd read) hdone
        rw [endComment_last read hd hb hl,
          endComment_last (s := s.ahead front broken) read hd hb (hline.trans hl)]
        refine ⟨?_, fun _ => ⟨hne, hline⟩⟩
        simp only [ahead, hlast]
  · rw [endComment_inside read hd, endComment_inside (s := s.ahead front broken) read hd]
    exact ⟨rfl, h.push (Text.trimEnd read) rfl rfl rfl⟩

/-- One character is read in the same way behind other entries. -/
theorem Settled.step (h : Settled s broken) (front : List RawEntry) (c : Char) :
    ∃ broken', (s.ahead front broken).step c = (s.step c).ahead front broken' ∧
      Settled (s.step c) broken' := by
  have hmode : (s.ahead front broken).mode = s.mode := rfl
  unfold Splitter.step
  rw [hmode]
  split
  · obtain ⟨broken', heq, hsettled⟩ := readCode_ahead front broken s c
    exact ⟨broken', heq, hsettled h⟩
  · split_ifs
    · exact ⟨broken, rfl, h.push [] rfl rfl (by simp)⟩
    · exact ⟨broken, rfl, h.push [] rfl rfl (by simp)⟩
    · obtain ⟨broken', heq, hsettled⟩ :=
        readCode_ahead front broken { s.push ['/'] with mode := .code } c
      exact ⟨broken', heq, hsettled (h.push ['/'] rfl rfl rfl)⟩
  · split_ifs
    · exact ⟨broken, rfl, h.push [c] rfl rfl rfl⟩
    · exact ⟨broken, rfl, h.push [c] rfl rfl rfl⟩
    · exact ⟨broken, rfl, h.push [c] rfl rfl rfl⟩
  · exact ⟨broken, rfl, h.push [c] rfl rfl rfl⟩
  · rename_i read _
    obtain ⟨hend, hsettled⟩ := endComment_ahead front read h
    split_ifs
    · obtain ⟨broken', heq, hnext⟩ := readCode_ahead front broken (s.endComment read) c
      exact ⟨broken', by rw [hend, heq], hnext hsettled⟩
    · exact ⟨broken, rfl, h.push [] rfl rfl (by simp)⟩
  · rename_i read star _
    obtain ⟨hend, hsettled⟩ := endComment_ahead front (read ++ [c]) h
    split_ifs
    · exact ⟨broken, hend, hsettled⟩
    · exact ⟨broken, rfl, h.push [] rfl rfl (by simp)⟩

/-- A text is read in the same way behind other entries. -/
theorem Settled.foldl (h : Settled s broken) (front : List RawEntry) (t : Text) :
    ∃ broken', t.foldl Splitter.step (s.ahead front broken) =
        (t.foldl Splitter.step s).ahead front broken' ∧
      Settled (t.foldl Splitter.step s) broken' := by
  induction t generalizing s broken with
  | nil => exact ⟨broken, rfl, h⟩
  | cons c t ih =>
    obtain ⟨next, heq, hnext⟩ := h.step front c
    rw [List.foldl_cons, List.foldl_cons, heq]
    exact ih hnext

theorem Settled.settle (h : Settled s broken) (front : List RawEntry) :
    (s.ahead front broken).settle = s.settle.ahead front broken := by
  have hmode : (s.ahead front broken).mode = s.mode := rfl
  unfold Splitter.settle
  rw [hmode]
  split
  · rfl
  · exact (endComment_ahead front _ h).1
  · exact (endComment_ahead front _ h).1
  · rfl

end Ahead

/-! ## Behind a comma -/

/-- A comma outside brackets sets the entry down, and the splitter starts anew behind it. -/
theorem step_comma {s : Splitter} (h : s.spot.isClosed = true) :
    s.step ',' = ({} : Splitter).ahead s.settle.finishEntry.done false := by
  have hbehind : Behind s s.copied s.done s.comment := ⟨h, rfl, rfl, rfl⟩
  rw [hbehind.step_eq (by decide) (by decide), hbehind.settle_eq, ahead, List.append_nil]
  rfl

/-- Blanks at the start of an entry are read into it. -/
theorem foldl_pad (front : List RawEntry) (broken : Bool) {pad : Text}
    (hpad : isBlankText pad = true) :
    ∃ broken', pad.foldl step (({} : Splitter).ahead front broken) =
      ahead front broken' { current := pad } := by
  have hstart : Ready (({} : Splitter).ahead front broken) front :=
    ⟨rfl, rfl, List.append_nil front, rfl⟩
  have hread := hstart.behind.blanks hpad
  obtain ⟨hmode, hdepth, hcopied⟩ := of_spot_code (hstart.blanks hpad).spot
  have hcurrent : (pad.foldl step (({} : Splitter).ahead front broken)).current = pad :=
    hcopied.symm.trans hread.copied
  refine ⟨(pad.foldl step (({} : Splitter).ahead front broken)).lineBroken, ?_⟩
  generalize pad.foldl step (({} : Splitter).ahead front broken) = s at *
  obtain ⟨done, current, comment, depth, mode, line⟩ := s
  obtain ⟨rfl, rfl, rfl⟩ : done = front ∧ comment = none ∧ current = pad :=
    ⟨hread.done, hread.comment, hcurrent⟩
  simp only [ahead, List.append_nil, Splitter.mk.injEq, true_and, and_true]
  exact ⟨hdepth, hmode⟩

end Splitter

/-! ## What an entry starts with -/

/-- Blank, or what comes first in it is neither a comma nor a comment. -/
def startsEntry (t : Text) : Bool :=
  match Text.trimStart t with
  | [] => true
  | c :: rest => c != ',' && !opensComment c rest

theorem startsEntry_cases {t : Text} (h : startsEntry t = true) :
    isBlankText t = true ∨ ∃ pad c rest, t = pad ++ c :: rest ∧ isBlankText pad = true ∧
      isBlank c = false ∧ c ≠ ',' ∧ opensComment c rest = false := by
  obtain ⟨pad, ht, hpad, hhead⟩ := Text.exists_trimStart t
  unfold startsEntry at h
  cases hstart : Text.trimStart t with
  | nil =>
    rw [hstart, List.append_nil] at ht
    exact Or.inl (ht ▸ hpad)
  | cons c rest =>
    rw [hstart] at h ht hhead
    simp only [Bool.and_eq_true, bne_iff_ne, Bool.not_eq_true'] at h
    exact Or.inr ⟨pad, c, rest, ht, hpad, hhead c rfl, h.1, h.2⟩

namespace Splitter

/-- Once both stand in the same position, the rest is read in the same way. -/
theorem Settled.settle_foldl {s : Splitter} {broken : Bool} (h : Settled s broken)
    (front : List RawEntry) (t : Text) :
    ∃ broken', (t.foldl Splitter.step (s.ahead front broken)).settle =
      (t.foldl Splitter.step s).settle.ahead front broken' := by
  obtain ⟨broken', heq, hend⟩ := h.foldl front t
  exact ⟨broken', by rw [heq, hend.settle]⟩

/-- The first text of an entry puts the splitter in the same position behind other entries. -/
theorem settle_first {s : Splitter} {c : Char} {rest : Text} (front : List RawEntry)
    (broken : Bool) (hs : s.mode = .code) (hc : isBlank c = false) (hcomma : c ≠ ',')
    (hcomment : opensComment c rest = false) :
    ∃ broken', ((c :: rest).foldl step (s.ahead front broken)).settle =
      ((c :: rest).foldl step s).settle.ahead front broken' := by
  have hsolid : isBlankText (s.current ++ [c]) = false := by
    simp [isBlankText, hc]
  have hstep : ∀ r : Splitter, r.mode = .code → r.step c = r.readCode c := by
    intro r hr
    simp only [step, hr]
  rw [List.foldl_cons, List.foldl_cons, hstep s hs, hstep (s.ahead front broken) hs]
  by_cases hslash : c = '/'
  · -- Whether a slash is text of the entry is settled by the character behind it.
    subst hslash
    cases rest with
    | nil => exact ⟨broken, rfl⟩
    | cons d rest =>
      have hd : d ≠ '/' ∧ d ≠ '*' := by simpa [opensComment] using hcomment
      have hpair : ∀ r : Splitter, (r.readCode '/').step d =
          { r.push ['/'] with mode := .code }.readCode d := by
        intro r
        simp [readCode, step, hd.1, hd.2, push]
      have hahead : { (s.ahead front broken).push ['/'] with mode := .code } =
          ({ s.push ['/'] with mode := .code } : Splitter).ahead front broken := rfl
      obtain ⟨next, heq, hnext⟩ :=
        readCode_ahead front broken { s.push ['/'] with mode := .code } d
      rw [List.foldl_cons, List.foldl_cons, hpair s, hpair (s.ahead front broken), hahead, heq]
      exact (hnext (settled_of_text hsolid)).settle_foldl front rest
  · obtain ⟨next, heq, _⟩ := readCode_ahead front broken s c
    obtain ⟨_, _, hcurrent, _⟩ := readCode_push hs hslash fun h => hcomma h.1
    rw [heq]
    refine Settled.settle_foldl (settled_of_text ?_) front rest
    rw [hcurrent]
    exact hsolid

/-- A text that starts an entry is read in the same way at the start and behind other entries. -/
theorem settle_of_startsEntry (front : List RawEntry) (broken : Bool) {t : Text}
    (ht : startsEntry t = true) :
    ∃ broken', (t.foldl step (({} : Splitter).ahead front broken)).settle =
      (t.foldl step {}).settle.ahead front broken' := by
  have hfresh : ({} : Splitter) = ({} : Splitter).ahead [] true := rfl
  rcases startsEntry_cases ht with hblank | ⟨pad, c, rest, rfl, hpad, hc, hcomma, hcomment⟩
  · obtain ⟨there, hthere⟩ := foldl_pad front broken hblank
    obtain ⟨here, hhere⟩ := foldl_pad [] true hblank
    rw [hthere, hfresh, hhere]
    exact ⟨there, rfl⟩
  · obtain ⟨there, hthere⟩ := foldl_pad front broken hpad
    obtain ⟨here, hhere⟩ := foldl_pad [] true hpad
    rw [List.foldl_append, List.foldl_append, hthere, hfresh, hhere]
    exact settle_first (s := ahead [] here { current := pad }) front there rfl hc hcomma hcomment

/-- A text that starts an entry is split as it is by itself, behind the entries before it. -/
theorem done_of_startsEntry (front : List RawEntry) (broken : Bool) {t : Text}
    (ht : startsEntry t = true) :
    (t.foldl step (({} : Splitter).ahead front broken)).settle.finishEntry.done =
      front ++ splitEntries t := by
  obtain ⟨broken', heq⟩ := settle_of_startsEntry front broken ht
  rw [heq, finishEntry_ahead]
  rfl

end Splitter

/-! ## The law -/

/-- Outside quotes, comments and brackets, a comma splits: what stands before it and what
stands behind it are split as they are by themselves, comments included. Only a comma or a
comment may not come first behind it, since a comment there may belong to the entry before. -/
theorem a_comma_splits_a_text_in_two (s t : Text) (hdepth : (scanEntries s).depth = 0)
    (hmode : (scanEntries s).mode = .code ∨ (scanEntries s).mode = .slash)
    (ht : startsEntry t = true) :
    splitEntries (s ++ ',' :: t) = splitEntries s ++ splitEntries t := by
  have hclosed : (scanEntries s).spot.isClosed = true := by
    rcases hmode with hm | hm
    · simp only [Splitter.spot, hm, hdepth, Spot.isClosed]
    · simp only [Splitter.spot, hm, hdepth, Spot.isClosed]
  have hcomma : (s ++ ',' :: t).foldl Splitter.step {} =
      t.foldl Splitter.step (({} : Splitter).ahead (splitEntries s) false) := by
    rw [List.foldl_append, List.foldl_cons]
    exact congrArg (t.foldl Splitter.step) (Splitter.step_comma hclosed)
  unfold splitEntries scanEntries
  rw [hcomma]
  exact Splitter.done_of_startsEntry (splitEntries s) false ht

/-- An entry with a bracket that closes nothing and a comment, and two entries behind it of
which the first takes a comment that stands behind its comma. -/
theorem commented_entries_are_split_in_two :
    let s := "a: 1) /* x */ ".toList
    let t := " b: [2, 3], // y\n 'c, d'".toList
    (scanEntries s).depth = 0 ∧ (scanEntries s).mode = .code ∧ startsEntry t = true ∧
      splitEntries (s ++ ',' :: t) = splitEntries s ++ splitEntries t ∧
      splitEntries s = [⟨"a: 1)".toList, some "/* x */".toList⟩] ∧
      splitEntries t = [⟨"b: [2, 3]".toList, some "// y".toList⟩, ⟨"'c, d'".toList, none⟩] := by
  intro s t
  have hdepth : (scanEntries s).depth = 0 := by decide +kernel
  have hmode : (scanEntries s).mode = .code := by decide +kernel
  have ht : startsEntry t = true := by decide +kernel
  exact ⟨hdepth, hmode, ht, a_comma_splits_a_text_in_two s t hdepth (Or.inl hmode) ht,
    by decide +kernel, by decide +kernel⟩

end Uplift.State
