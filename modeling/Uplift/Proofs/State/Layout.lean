-- Reading back a literal that was written out. Both layouts, all entries on one
-- line and one entry a line, are read entry by entry: each entry is set down as
-- it was written, with the comment that stands behind it on its line.
import Uplift.Proofs.State.Remark
import Uplift.State.Literal

namespace Uplift.State

open Text (isBlank isBlankText isSolid)

namespace Splitter

/-! ## One entry -/

theorem of_spot_code {s : Splitter} {d : Nat} (h : s.spot = .code d) :
    s.mode = .code ∧ s.depth = d ∧ s.copied = s.current := by
  cases hm : s.mode <;> simp_all [spot, copied, pending]

theorem of_spot_closed {s : Splitter} (h : s.spot.isClosed = true) :
    s.depth = 0 ∧ (s.mode = .code ∨ s.mode = .slash) := by
  cases hm : s.mode <;> simp_all [spot, Spot.isClosed_iff]

/-- The splitter stands outside brackets, behind the text `t` of an entry. -/
structure Behind (s : Splitter) (t : Text) (done : List RawEntry) (comment : Option Text) :
    Prop where
  closed : s.spot.isClosed = true
  copied : s.copied = t
  done : s.done = done
  comment : s.comment = comment

/-- The splitter stands at the start of an entry. -/
structure Ready (s : Splitter) (done : List RawEntry) : Prop where
  spot : s.spot = .code 0
  blank : isBlankText s.current = true
  done : s.done = done
  comment : s.comment = none

section Reading

variable {s : Splitter} {t : Text} {done : List RawEntry} {comment : Option Text}

theorem Behind.settle_eq (h : Behind s t done comment) :
    s.settle = ⟨done, t, comment, 0, .code, s.lineBroken⟩ := by
  obtain ⟨hclosed, rfl, rfl, rfl⟩ := h
  obtain ⟨hd, hm | hm⟩ := of_spot_closed hclosed
  · simp only [settle, Splitter.copied, Splitter.pending, hm, List.append_nil]
    rw [← hd, ← hm]
  · simp [settle, Splitter.copied, Splitter.pending, hm, hd, push]

/-- A character that no comment starts with is read as code. -/
theorem Behind.step_eq (h : Behind s t done comment) {c : Char} (hslash : c ≠ '/') (hstar : c ≠ '*') :
    s.step c = s.settle.readCode c := by
  obtain ⟨_, hm | hm⟩ := of_spot_closed h.closed
  · simp [step, settle, hm]
  · simp [step, settle, hm, hslash, hstar]

theorem Behind.read (h : Behind s t done comment) {u : Text}
    (hu : Lexis.entry.accepts s.spot u = true) (hc : (s.spot.after u).isClosed = true) :
    Behind (u.foldl step s) (t ++ u) done comment := by
  have hreach : Lexis.entry.Reaches s.spot := by
    rcases Spot.isClosed_iff.1 h.closed with hs | hs <;> rw [hs] <;> trivial
  obtain ⟨hcopied, hdone, hcomment⟩ := foldl_copies hu hreach
  exact ⟨by rwa [foldl_spot], by rw [hcopied, h.copied], hdone.trans h.done,
    hcomment.trans h.comment⟩

theorem Behind.blanks (h : Behind s t done comment) {pad : Text} (hpad : isBlankText pad = true) :
    Behind (pad.foldl step s) (t ++ pad) done comment := by
  have hneutral := isNeutral_of_isBlankText hpad
  obtain ⟨hsound, hline, hidle⟩ := Spot.of_isClosed h.closed
  refine h.read (Lexis.entry_isOpen.accepts hsound hline hneutral) ?_
  by_cases hnil : pad = []
  · rw [hnil]
    exact h.closed
  · rw [Spot.after_neutral hsound hline hneutral hnil, hidle]
    rfl

/-- A blank behind code leaves no slash open. -/
theorem Behind.space (h : Behind s t done comment) :
    s.step ' ' = { s.settle with current := t ++ [' '] } := by
  rw [h.step_eq (by decide) (by decide), h.settle_eq]
  simp [readCode, isQuote, isOpener, isCloser, push]

theorem Behind.finish {pad pad' : Text} (h : Behind s (pad ++ t ++ pad') done comment)
    (hpad : isBlankText pad = true) (hpad' : isBlankText pad' = true) (ht : isSolid t = true) :
    s.settle.finishEntry = ⟨done ++ [⟨t, comment⟩], [], none, 0, .code, s.lineBroken⟩ := by
  have hne : t.isEmpty = false := by simpa using Text.isSolid_ne_nil ht
  rw [h.settle_eq]
  simp only [finishEntry, Text.trim_pad t hpad hpad' (Or.inr ht), hne]
  rfl

theorem Behind.comma {pad pad' : Text} (h : Behind s (pad ++ t ++ pad') done comment)
    (hpad : isBlankText pad = true) (hpad' : isBlankText pad' = true) (ht : isSolid t = true) :
    s.step ',' = ⟨done ++ [⟨t, comment⟩], [], none, 0, .code, false⟩ := by
  have hcomma : s.settle.readCode ',' = { s.settle.finishEntry with lineBroken := false } := by
    rw [h.settle_eq]
    rfl
  rw [h.step_eq (by decide) (by decide), hcomma, h.finish hpad hpad' ht]

theorem Ready.behind (h : Ready s done) : Behind s s.current done none :=
  ⟨by rw [h.spot]; rfl, (of_spot_code h.spot).2.2, h.done, h.comment⟩

theorem Ready.blanks (h : Ready s done) {pad : Text} (hpad : isBlankText pad = true) :
    Ready (pad.foldl step s) done := by
  have hb := h.behind.blanks hpad
  have hspot : (pad.foldl step s).spot = .code 0 := by
    rw [foldl_spot, h.spot, Spot.after_blanks hpad]
  obtain ⟨_, _, hcurrent⟩ := of_spot_code hspot
  refine ⟨hspot, ?_, hb.done, hb.comment⟩
  rw [← hcurrent, hb.copied]
  exact Text.isBlankText_append.2 ⟨h.blank, hpad⟩

theorem Ready.read (h : Ready s done) (ht : Lexis.entry.closes t = true) :
    Behind (t.foldl step s) (s.current ++ t) done none := by
  obtain ⟨haccepts, hclosed⟩ := Lexis.closes_iff.1 ht
  rw [← h.spot] at haccepts hclosed
  exact h.behind.read haccepts hclosed

end Reading

end Splitter

/-! ## Lines -/

namespace Entry

theorem render_of_value {e : Entry} (h : e.value ≠ []) :
    e.render = e.key ++ [':', ' '] ++ e.value := by
  unfold render
  rw [if_neg (by simpa using h), List.append_assoc]
  rfl

theorem render_of_no_value {e : Entry} (h : e.value = []) : e.render = e.key := by
  simp [render, h]

/-- The entry as it is set down when it is read. -/
def raw (e : Entry) : RawEntry := ⟨e.render, e.comment⟩

/-- An entry that is cut at its own colon is read as it was written. -/
theorem toEntry?_raw {e : Entry} (hk : isSolid e.key = true) (hv : isSolid e.value = true)
    (hlast : e.value.getLast? ≠ some ';')
    (hcut : cutColon? 0 none false (e.key ++ ':' :: ' ' :: e.value) =
      some (e.key, ' ' :: e.value)) : e.raw.toEntry? = some e := by
  have hne := Text.isSolid_ne_nil hv
  have hkey : Text.trim e.key = e.key := Text.trim_eq_self_iff.2 (Or.inr hk)
  have htrim : Text.trim (' ' :: e.value) = e.value := by
    simpa using Text.trim_pad (l := [' ']) (r := []) e.value rfl rfl (Or.inr hv)
  have hvalue : Text.trimTerminator (' ' :: e.value) = e.value := by
    rw [Text.trimTerminator_eq_trim, htrim]
    rwa [htrim]
  have hrender : e.render = e.key ++ ':' :: ' ' :: e.value := by
    rw [render_of_value hne, List.append_assoc]
    rfl
  unfold RawEntry.toEntry? raw
  simp only [hrender, hcut, hkey, hvalue]
  rw [if_neg (by simp [hne, Text.isSolid_ne_nil hk])]

/-- The comment behind an entry on its line. -/
def tail (e : Entry) : Text :=
  match e.comment with
  | some t => ' ' :: t
  | none => []

/-- The line of an entry that others follow. -/
def line (lead : Text) (e : Entry) : Text := lead ++ (e.render ++ ',' :: (e.tail ++ ['\n']))

/-- The text of the entry is read as one entry. -/
structure Legible (e : Entry) : Prop where
  closes : Lexis.entry.closes e.render = true
  solid : isSolid e.render = true

/-- The comment of the entry, if there is one, is read as one comment. -/
def Remarked (e : Entry) : Prop := ∀ c, e.comment = some c → Remark c ∧ Text.trimEnd c = c

end Entry

theorem renderLines_singleton (lead : Text) (e : Entry) :
    renderLines lead [e] = lead ++ (e.render ++ (e.tail ++ ['\n'])) := by
  cases hc : e.comment <;> simp [renderLines, Entry.tail, hc]

theorem renderLines_append (lead : Text) (es : List Entry) {rest : List Entry} (h : rest ≠ []) :
    renderLines lead (es ++ rest) = es.flatMap (Entry.line lead) ++ renderLines lead rest := by
  induction es with
  | nil => rfl
  | cons e es ih =>
    have hne : (es ++ rest).isEmpty = false := by simp [h]
    rw [List.cons_append, renderLines, ih, hne]
    cases hc : e.comment <;> simp [Entry.line, Entry.tail, hc]

namespace Splitter

/-- Behind a comma, a remark is set down with the entry before it. -/
theorem foldl_remark_behind_comma {c : Text} (hc : Remark c) (t : Text) (done : List RawEntry) :
    ∃ pad, isBlankText pad = true ∧
      (' ' :: (c ++ ['\n'])).foldl step ⟨done ++ [⟨t, none⟩], [], none, 0, .code, false⟩ =
        ⟨done ++ [⟨t, some (Text.trimEnd c)⟩], pad, none, 0, .code, true⟩ := by
  obtain ⟨pad, hpad, hread⟩ := foldl_remark
    (s := ⟨done ++ [⟨t, none⟩], [' '], none, 0, .code, false⟩) hc rfl rfl
  rw [endComment_last c rfl rfl rfl, noteLast_concat] at hread
  exact ⟨' ' :: pad, hpad, hread⟩

/-- Behind an entry, a remark is kept for it. -/
theorem Behind.foldl_remark {s : Splitter} {t c : Text} {done : List RawEntry}
    (h : Behind s t done none) (ht : isBlankText t = false) (hc : Remark c) :
    ∃ pad, isBlankText pad = true ∧ (' ' :: (c ++ ['\n'])).foldl step s =
      ⟨done, t ++ pad, some (Text.trimEnd c), 0, .code, true⟩ := by
  obtain ⟨pad, hpad, hread⟩ := Splitter.foldl_remark
    (s := ⟨done, t ++ [' '], none, 0, .code, s.lineBroken⟩) hc rfl rfl
  have hblank : isBlankText (t ++ [' ']) = false := by
    rw [Bool.eq_false_iff, ne_eq, Text.isBlankText_append, ht]
    simp
  rw [endComment_own c rfl hblank] at hread
  refine ⟨' ' :: pad, hpad, ?_⟩
  rw [List.foldl_cons, h.space, h.settle_eq, hread]
  simp [joinComment]

/-- Behind the comma, the comment of an entry is set down with it. -/
theorem ready_tail {e : Entry} (he : e.Remarked) (t : Text) (done : List RawEntry) :
    Ready ((e.tail ++ ['\n']).foldl step ⟨done ++ [⟨t, none⟩], [], none, 0, .code, false⟩)
      (done ++ [⟨t, e.comment⟩]) := by
  unfold Entry.tail
  cases hc : e.comment with
  | none =>
    have hready : Ready ⟨done ++ [⟨t, none⟩], [], none, 0, .code, false⟩ (done ++ [⟨t, none⟩]) :=
      ⟨rfl, rfl, rfl, rfl⟩
    exact hready.blanks (by rfl)
  | some c =>
    obtain ⟨hremark, htrim⟩ := he c hc
    obtain ⟨pad, hpad, hread⟩ := foldl_remark_behind_comma hremark t done
    rw [htrim] at hread
    rw [List.cons_append, hread]
    exact ⟨rfl, hpad, rfl, rfl⟩

/-- Without a comma, the comment of an entry is kept for it. -/
theorem Behind.tail {s : Splitter} {t : Text} {done : List RawEntry} {e : Entry}
    (h : Behind s t done none) (ht : isBlankText t = false) (he : e.Remarked) :
    ∃ pad, isBlankText pad = true ∧
      Behind ((e.tail ++ ['\n']).foldl step s) (t ++ pad) done e.comment := by
  unfold Entry.tail
  cases hc : e.comment with
  | none => exact ⟨['\n'], rfl, h.blanks (by rfl)⟩
  | some c =>
    obtain ⟨hremark, htrim⟩ := he c hc
    obtain ⟨pad, hpad, hread⟩ := h.foldl_remark ht hremark
    rw [htrim] at hread
    refine ⟨pad, hpad, ?_⟩
    rw [List.cons_append, hread]
    exact ⟨rfl, by simp [Splitter.copied, Splitter.pending], rfl, rfl⟩

section Lines

variable {s : Splitter} {done : List RawEntry} {lead : Text} {e : Entry} {es : List Entry}

theorem Ready.line (h : Ready s done) (hlead : isBlankText lead = true) (he : e.Legible)
    (hc : e.Remarked) : Ready ((e.line lead).foldl step s) (done ++ [e.raw]) := by
  have hstart := h.blanks hlead
  have htext := hstart.read he.closes
  rw [← List.append_nil (_ ++ e.render)] at htext
  have hcomma := htext.comma hstart.blank rfl he.solid
  unfold Entry.line
  rw [List.foldl_append, List.foldl_append, List.foldl_cons, hcomma]
  exact ready_tail hc e.render done

theorem Ready.lines (h : Ready s done) (hlead : isBlankText lead = true)
    (hes : ∀ e ∈ es, e.Legible ∧ e.Remarked) :
    Ready ((es.flatMap (Entry.line lead)).foldl step s) (done ++ es.map Entry.raw) := by
  induction es generalizing s done with
  | nil => simpa using h
  | cons e es ih =>
    obtain ⟨he, hc⟩ := hes e (by simp)
    have hrest := ih (h.line hlead he hc) fun x hx => hes x (List.mem_cons_of_mem _ hx)
    rwa [List.append_assoc, List.singleton_append, ← List.map_cons, ← List.foldl_append,
      ← List.flatMap_cons] at hrest

theorem Ready.lastLine (h : Ready s done) (hlead : isBlankText lead = true) (he : e.Legible)
    (hc : e.Remarked) {indent : Text} (hindent : isBlankText indent = true) :
    ((renderLines lead [e] ++ indent).foldl step s).settle.finishEntry.done =
      done ++ [e.raw] := by
  have hstart := h.blanks hlead
  have hsolid : isBlankText ((lead.foldl step s).current ++ e.render) = false := by
    rw [Bool.eq_false_iff, ne_eq, Text.isBlankText_append,
      Text.not_isBlankText_of_isSolid he.solid]
    simp
  obtain ⟨pad, hpad, htail⟩ := (hstart.read he.closes).tail hsolid hc
  have hend := htail.blanks hindent
  rw [List.append_assoc] at hend
  rw [renderLines_singleton, List.foldl_append, List.foldl_append, List.foldl_append,
    hend.finish hstart.blank (Text.isBlankText_append.2 ⟨hpad, hindent⟩) he.solid]
  rfl

theorem join_cons_cons (sep x y : Text) (rest : List Text) :
    Text.join sep (x :: y :: rest) = x ++ (sep ++ Text.join sep (y :: rest)) := by
  simp [Text.join, List.intersperse]

theorem Ready.joined (h : Ready s done) (hes : ∀ e ∈ es, e.Legible) (hne : es ≠ []) :
    ((Text.join [',', ' '] (es.map Entry.render)).foldl step s).settle.finishEntry.done =
      done ++ es.map fun e => ⟨e.render, none⟩ := by
  induction es generalizing s done with
  | nil => exact absurd rfl hne
  | cons e es ih =>
    have he := hes e (by simp)
    have htext := h.read he.closes
    rw [← List.append_nil (_ ++ e.render)] at htext
    cases es with
    | nil =>
      rw [show Text.join [',', ' '] ([e].map Entry.render) = e.render by simp [Text.join],
        htext.finish h.blank rfl he.solid]
      rfl
    | cons x es =>
      have hready : Ready ⟨done ++ [⟨e.render, none⟩], [], none, 0, .code, false⟩
          (done ++ [⟨e.render, none⟩]) := ⟨rfl, rfl, rfl, rfl⟩
      have hrest := ih (hready.blanks (by rfl : isBlankText [' '] = true))
        (fun x hx => hes x (List.mem_cons_of_mem _ hx)) (by simp)
      rw [List.map_cons, List.map_cons, join_cons_cons, List.foldl_append, List.foldl_append,
        List.foldl_cons, htext.comma h.blank rfl he.solid, ← List.map_cons, hrest]
      simp

end Lines

end Splitter

/-! ## Literals -/

theorem interior_braces (mid : Text) : interior ('{' :: (mid ++ ['}'])) = mid := by
  have hsolid : isSolid ('{' :: (mid ++ ['}'])) = true :=
    Text.isSolid_append (s := ['{']) (t := ['}']) mid rfl rfl
  have htrim := Text.trim_eq_self_iff.2 (Or.inr hsolid)
  have hlast : ('{' :: (mid ++ ['}'])).getLast? = some '}' := by
    rw [← List.cons_append, List.getLast?_concat]
  have hbody : Text.trimTerminator ('{' :: (mid ++ ['}'])) = '{' :: (mid ++ ['}']) := by
    rw [Text.trimTerminator_eq_trim, htrim]
    rw [htrim, hlast]
    decide
  simp [interior, hbody, Text.dropLead?, Text.dropLast?]

/-- A literal that was written out is read entry by entry as it was written. -/
theorem splitEntries_formatNested {p : Props} {indent unit : Text}
    (hindent : isBlankText indent = true) (hunit : isBlankText unit = true)
    (hes : ∀ e ∈ p.entries, e.Legible ∧ e.Remarked) :
    splitEntries (interior (p.formatNested indent unit)) = p.entries.map Entry.raw := by
  have hstart : Splitter.Ready {} [] := ⟨rfl, rfl, rfl, rfl⟩
  have hlead : isBlankText (indent ++ unit) = true := Text.isBlankText_append.2 ⟨hindent, hunit⟩
  unfold Props.formatNested
  split_ifs with hempty hlines
  · rw [List.isEmpty_iff.1 hempty]
    rfl
  · obtain hnil | ⟨es, e, hsnoc⟩ := List.eq_nil_or_concat p.entries
    · rw [hnil] at hlines
      cases hlines
    rw [List.concat_eq_append] at hsnoc
    rw [hsnoc] at hes ⊢
    have hready := (hstart.blanks (by rfl : isBlankText ['\n'] = true)).lines hlead
      fun x (hx : x ∈ es) => hes x (List.mem_append_left _ hx)
    obtain ⟨he, hc⟩ := hes e (by simp)
    have hlast := hready.lastLine hlead he hc hindent
    rw [show '{' :: '\n' :: renderLines (indent ++ unit) (es ++ [e]) ++ indent ++ ['}'] =
      '{' :: (('\n' :: (renderLines (indent ++ unit) (es ++ [e]) ++ indent)) ++ ['}']) by simp,
      interior_braces, renderLines_append _ _ (by simp), List.map_append, List.append_assoc]
    unfold splitEntries scanEntries
    rw [List.foldl_cons, List.foldl_append]
    exact hlast
  · have hplain : ∀ e ∈ p.entries, e.raw = ⟨e.render, none⟩ := by
      intro e he
      have hno : e.needsLine = false := by
        rw [Bool.eq_false_iff]
        exact fun h => hlines (List.any_eq_true.2 ⟨e, he, h⟩)
      have hnone : e.comment = none := by
        simpa using (Bool.or_eq_false_iff.1 hno).1
      rw [Entry.raw, hnone]
    have hread := hstart.joined (fun e he => (hes e he).1) (by simpa [Props.isEmpty] using hempty)
    rw [List.cons_append, interior_braces, List.map_congr_left hplain]
    exact hread

end Uplift.State
