-- Blank lines around members. A member that stands alone on its lines goes with
-- these lines, and where a blank line stands above it, with the one below it too.
-- But what stands above is looked up in the source, where a member that goes as
-- well still stands. So two blank lines are brought together exactly where
-- members that go are stacked: a blank line is left below the lower one and
-- above all of them.
import Uplift.Proofs.Revise.Clearance
import Uplift.Proofs.Text.Lines

namespace Uplift.Revise

open Text (width isBlank isBlankText isSolidAt isCovered remains lastLine EndsLine SingleGaps
  startsBlank endsBlank)

/-- Nothing else stands on the lines of the span. -/
def standsAlone (source : Text) (s : Span) : Bool :=
  match source.cut? s.start, source.cut? s.stop with
  | some (before, _), some (_, after) =>
    isBlankText (lastLine before) && isBlankText (takeLine after).1
  | _, _ => false

/-- `lower` starts where `upper` ends, a blank line stands below it, and of what stands above it
the edits leave a blank line at the end. -/
structure BringsGapsTogether (source : Text) (edits : List Edit) (upper lower : Edit) : Prop where
  stacked : upper.stop = lower.start
  above : ∃ u v, source.cut? lower.start = some (u, v) ∧
    endsBlank (u.without (edits.map Edit.range)) = true
  below : ∃ u v, source.cut? lower.stop = some (u, v) ∧ startsBlank v = true

/-! ## The lines that go with a member -/

theorem followsBlankOrOpener_of_endsBlank {above : Text} (h : EndsLine above)
    (hblank : endsBlank above = true) : followsBlankOrOpener above = true := by
  rcases h with rfl | hlast
  · cases hblank
  · obtain ⟨earlier, rfl⟩ := List.getLast?_eq_some_iff.1 hlast
    rw [Text.endsBlank_newline] at hblank
    have hdrop : Text.dropLast? (earlier ++ ['\n']) '\n' = some earlier := by
      simp [Text.dropLast?]
    unfold followsBlankOrOpener
    rw [hdrop]
    simp only [Bool.or_eq_true, List.isEmpty_iff]
    exact Or.inl (Text.trim_eq_nil_iff.2 hblank)

theorem startsBlank_of_blankLine?_none {rest : Text} (h : blankLine? rest = none) :
    startsBlank rest = false := by
  cases hfirst : Text.firstLine? rest with
  | none => exact Text.startsBlank_of_no_newline (Text.newline_not_mem_of_firstLine? hfirst)
  | some p =>
    obtain ⟨line, below⟩ := p
    have hsolid : isBlankText line = false := by
      unfold blankLine? at h
      rw [hfirst] at h
      simpa using h
    unfold startsBlank
    rw [Text.lines_of_firstLine? hfirst, List.head?_cons, Option.any_some, Text.isBlankLine, hsolid]
    rfl

/-- The edit covers whole lines. They do not start with a blank line, and where a blank line
stands above them none stands below. -/
structure TakesLines (source : Text) (e : Edit) (above gone below : Text) : Prop where
  source_eq : source = above ++ gone ++ below
  start_eq : e.start = width above
  stop_eq : e.stop = width (above ++ gone)
  ends_above : EndsLine above
  ends_gone : EndsLine gone ∨ below = []
  first_solid : startsBlank (gone ++ below) = false
  gap : endsBlank above = true → startsBlank below = false

/-- Below a blank line that goes no other blank line stands. -/
theorem startsBlank_below {front rest line below : Text} (h : SingleGaps (front ++ rest))
    (hfront : EndsLine front) (hrest : rest = line ++ below) (hline : blankLine? rest = some line) :
    startsBlank below = false := by
  obtain ⟨_, hblank, hnl⟩ := blankLine?_eq_some hline
  have hends : EndsLine line := Or.inr hnl
  have hone : endsBlank line = true := by
    obtain ⟨init, rfl⟩ := List.getLast?_eq_some_iff.1 hnl
    rw [Text.endsBlank_newline, Text.isBlankText_iff]
    intro c hc
    apply hblank
    obtain ⟨above, habove, _⟩ := Text.lastLine_split init
    rw [habove]
    simp [hc]
  have hbelow := ((Text.singleGaps_append hfront _).1 h).2.1
  rw [hrest, Text.singleGaps_append hends] at hbelow
  rw [Bool.eq_false_iff]
  exact fun hstarts => hbelow.2.2 ⟨hone, hstarts⟩

/-- A member that stands alone on its lines goes with them. -/
theorem exists_takesLines {source : Text} {s : Span} {e : Edit} (hgaps : SingleGaps source)
    (hsolid : isSolidAt source s.start s.stop = true) (halone : standsAlone source s = true)
    (he : removalEdit? source s = some e) :
    ∃ above gone below, TakesLines source e above gone below := by
  obtain ⟨mid, hmid, hmids⟩ := (Option.any_eq_true _ _).1 hsolid
  obtain ⟨before, after, hsource, hstart, hstop⟩ := Text.slice?_eq_some_iff.1 hmid
  have hcut : source.cut? s.start = some (before, mid ++ after) :=
    Text.cut?_eq_some_iff.2 ⟨by rw [hsource, List.append_assoc], hstart⟩
  have hcut' : source.cut? s.stop = some (before ++ mid, after) :=
    Text.cut?_eq_some_iff.2 ⟨hsource, by rw [Text.width_append]; omega⟩
  unfold standsAlone at halone
  rw [hcut, hcut'] at halone
  obtain ⟨hrange, _⟩ := removalEdit?_eq_some.1 he
  unfold removalRange? at hrange
  simp only [hcut, hcut', Option.bind_eq_bind, Option.bind_some] at hrange
  rw [if_pos halone, Option.some.injEq, Prod.mk.injEq] at hrange
  obtain ⟨hleft, hright⟩ := hrange
  obtain ⟨above, habove, hends⟩ := Text.lastLine_split before
  have hlead := Text.newline_not_mem_lastLine before
  obtain ⟨hsplit, htrail⟩ := takeLine_split after
  generalize lastLine before = lead at *
  generalize (takeLine after).1 = trail at *
  generalize (takeLine after).2 = rest at *
  have htake : before.take (before.length - lead.length) = above := by
    rw [habove]
    simp
  rw [htake] at hright
  generalize hx : (if followsBlankOrOpener above then (blankLine? rest).getD [] else []) = extra
    at hright
  obtain ⟨⟨below, hbelow⟩, _, hextra⟩ := extra_blank hx.symm
  refine ⟨above, lead ++ mid ++ trail ++ extra, below, ?_, ?_, ?_, hends, ?_, ?_, ?_⟩
  · rw [hsource, hsplit, habove, hbelow]
    simp only [List.append_assoc]
  · rw [← hleft, ← hstart, habove, Text.width_append]
    omega
  · rw [← hright, ← hstop, ← hstart, habove]
    simp only [Text.width_append]
    omega
  · -- The rest of the member's line ends with a newline, unless it is the last of the text.
    rcases hextra with rfl | hextra
    · rw [List.append_nil]
      rcases htrail with htrail | rfl
      · left
        right
        rw [List.getLast?_append, htrail]
        rfl
      · right
        simpa using hbelow.symm
    · left
      right
      rw [List.getLast?_append, hextra]
      rfl
  · obtain ⟨⟨c, hc, hcb⟩, _⟩ := Text.isSolid_iff.1 hmids
    cases mid with
    | nil => cases hc
    | cons d mid =>
      cases hc
      have hfirst := Text.startsBlank_of_solid hlead hcb (mid ++ trail ++ extra ++ below)
      simpa only [List.append_assoc, List.cons_append] using hfirst
  · intro hblank
    rw [if_pos (followsBlankOrOpener_of_endsBlank hends hblank)] at hx
    cases hline : blankLine? rest with
    | none =>
      rw [hline, Option.getD_none] at hx
      rw [← hx, List.nil_append] at hbelow
      rw [← hbelow]
      exact startsBlank_of_blankLine?_none hline
    | some line =>
      rw [hline, Option.getD_some] at hx
      rw [← hx] at hbelow
      have htail : EndsLine (before ++ mid ++ trail) := by
        rcases htrail with htrail | rfl
        · right
          rw [List.getLast?_append, htrail]
          rfl
        · cases hline
      apply startsBlank_below _ htail hbelow hline
      rw [List.append_assoc, ← hsplit, ← hsource]
      exact hgaps

/-! ## Removals from left to right -/

/-- What is left above `f` ends with a blank line and what stands below it starts with one; the
source is read up to `front`, of which `done` is left. -/
def Meets (front rest done : Text) (es : List Edit) (f : Edit) : Prop :=
  ∃ u w v, rest = u ++ w ++ v ∧ f.start = width (front ++ u) ∧ f.stop = width (front ++ u ++ w) ∧
    endsBlank (done ++ remains (isCovered (es.map Edit.range)) (width front) u) = true ∧
    startsBlank v = true

theorem append_inj_of_width {u v x y : Text} (h : u ++ v = x ++ y) (hw : width u = width x) :
    u = x ∧ v = y := by
  have hcut := Text.cut?_append u v
  rw [h, hw, Text.cut?_append] at hcut
  cases hcut
  exact ⟨rfl, rfl⟩

section

variable {front kept gone tail done : Text} {e : Edit} {es : List Edit}

/-- A place in the text is split into lines in one way. -/
theorem TakesLines.of_place {above gone' below : Text}
    (h : TakesLines (front ++ (kept ++ gone ++ tail)) e above gone' below)
    (hstart : e.start = width (front ++ kept)) (hstop : e.stop = width (front ++ kept ++ gone)) :
    TakesLines (front ++ (kept ++ gone ++ tail)) e (front ++ kept) gone tail := by
  have hsource := h.source_eq
  rw [← List.append_assoc, ← List.append_assoc] at hsource
  obtain ⟨hfront, rfl⟩ := append_inj_of_width hsource (by rw [← hstop, h.stop_eq])
  obtain ⟨rfl, rfl⟩ := append_inj_of_width hfront (by rw [← hstart, h.start_eq])
  exact h

/-- All ranges start behind what is kept in front of the first. -/
theorem first_range (hstart : e.start = width (front ++ kept))
    (hstop : e.stop = width (front ++ kept ++ gone)) :
    e.range = (width front + width kept, width front + width kept + width gone) := by
  unfold Edit.range
  rw [hstart, hstop, Text.width_append, Text.width_append, Text.width_append]

theorem remains_behind_first
    (h : Edit.InOrder (front ++ (kept ++ gone ++ tail)) (width front) (e :: es))
    (hstart : e.start = width (front ++ kept)) (hstop : e.stop = width (front ++ kept ++ gone))
    (u : Text) :
    remains (isCovered ((e :: es).map Edit.range)) (width front) (kept ++ gone ++ u) =
      kept ++ remains (isCovered (es.map Edit.range)) (width (front ++ kept ++ gone)) u := by
  have hbehind : ∀ r ∈ es.map Edit.range, width front + width kept + width gone ≤ r.1 := by
    intro r hr
    obtain ⟨f, hf, rfl⟩ := List.mem_map.1 hr
    have := h.tail.ahead f hf
    rw [hstop, Text.width_append, Text.width_append] at this
    exact this
  rw [List.map_cons, first_range hstart hstop, Text.remains_first_range hbehind,
    Text.width_append, Text.width_append]

theorem meets_head
    (h : Edit.InOrder (front ++ (kept ++ gone ++ tail)) (width front) (e :: es))
    (hstart : e.start = width (front ++ kept)) (hstop : e.stop = width (front ++ kept ++ gone)) :
    Meets front (kept ++ gone ++ tail) done (e :: es) e ↔
      endsBlank (done ++ kept) = true ∧ startsBlank tail = true := by
  have hkept : remains (isCovered ((e :: es).map Edit.range)) (width front) kept = kept := by
    apply Text.remains_eq_self
    intro n _ hn
    apply Text.isCovered_eq_false_of_lt
    intro r hr
    obtain ⟨f, hf, rfl⟩ := List.mem_map.1 hr
    have hfirst : e.start ≤ f.start := by
      rcases List.mem_cons.1 hf with rfl | hf
      · exact Nat.le_refl _
      · have hle := (Edit.fits_iff.1 (h.fits e List.mem_cons_self)).1
        have := h.tail.ahead f hf
        omega
    rw [hstart, Text.width_append] at hfirst
    unfold Edit.range
    omega
  constructor
  · rintro ⟨u, w, v, hrest, hu, hw, habove, hbelow⟩
    obtain ⟨huw, rfl⟩ := append_inj_of_width hrest (by
      have := hstop.symm.trans hw
      simp only [Text.width_append] at this ⊢
      omega)
    obtain ⟨rfl, rfl⟩ := append_inj_of_width huw (by
      have := hstart.symm.trans hu
      simp only [Text.width_append] at this
      omega)
    rw [hkept] at habove
    exact ⟨habove, hbelow⟩
  · rintro ⟨habove, hbelow⟩
    exact ⟨kept, gone, tail, rfl, hstart, hstop, by rwa [hkept], hbelow⟩

theorem meets_tail
    (h : Edit.InOrder (front ++ (kept ++ gone ++ tail)) (width front) (e :: es))
    (hstart : e.start = width (front ++ kept)) (hstop : e.stop = width (front ++ kept ++ gone))
    {f : Edit} (hf : f ∈ es) :
    Meets front (kept ++ gone ++ tail) done (e :: es) f ↔
      Meets (front ++ kept ++ gone) tail (done ++ kept) es f := by
  have hahead := h.tail.ahead f hf
  constructor
  · rintro ⟨u, w, v, hrest, hu, hw, habove, hbelow⟩
    rw [List.append_assoc u] at hrest
    obtain ⟨x, rfl, htail⟩ := Text.append_of_width_le hrest (by
      rw [hstop, hu] at hahead
      simp only [Text.width_append] at hahead ⊢
      omega)
    rw [remains_behind_first h hstart hstop, ← List.append_assoc] at habove
    simp only [← List.append_assoc] at htail hu hw
    exact ⟨x, w, v, htail, hu, hw, habove, hbelow⟩
  · rintro ⟨x, w, v, rfl, hu, hw, habove, hbelow⟩
    refine ⟨kept ++ gone ++ x, w, v, by simp only [List.append_assoc], ?_, ?_, ?_, hbelow⟩
    · rw [hu]
      simp only [List.append_assoc]
    · rw [hw]
      simp only [List.append_assoc]
    · rw [remains_behind_first h hstart hstop, ← List.append_assoc]
      exact habove

theorem startsBlank_kept
    (h : TakesLines (front ++ (kept ++ gone ++ tail)) e (front ++ kept) gone tail) :
    startsBlank (kept ++ gone ++ tail) = startsBlank kept := by
  by_cases hkept : kept = []
  · rw [hkept, List.nil_append, h.first_solid]
    rfl
  · rw [List.append_assoc, Text.startsBlank_append h.ends_above.of_append hkept]

end

/-- Removals of whole lines leave single gaps exactly when none of them brings two gaps
together. -/
theorem singleGaps_splice {front rest done : Text} {es : List Edit}
    (h : Edit.InOrder (front ++ rest) (width front) es) (hnone : ∀ e ∈ es, e.replacement = [])
    (hlines : ∀ e ∈ es, ∃ above gone below, TakesLines (front ++ rest) e above gone below)
    (hrest : SingleGaps rest) (hdone : EndsLine done) :
    SingleGaps (done ++ Edit.splice rest (width front) es) ↔
      SingleGaps done ∧ ¬ (endsBlank done = true ∧ startsBlank rest = true) ∧
        ∀ f ∈ es, ¬ Meets front rest done es f := by
  induction es generalizing front rest done with
  | nil =>
    unfold Edit.splice
    rw [Text.singleGaps_append hdone]
    simp [hrest]
  | cons e es ih =>
    obtain ⟨kept, gone, tail, rfl, hstart, hstop, hsplice⟩ := h.splice_cons
    obtain ⟨_, _, _, hplace⟩ := hlines e List.mem_cons_self
    have htakes := hplace.of_place hstart hstop
    have hlater := h.tail_of_stop hstop
    have hkept : EndsLine kept := htakes.ends_above.of_append
    rw [List.append_assoc, Text.singleGaps_append hkept] at hrest
    have htail : SingleGaps tail := by
      rcases htakes.ends_gone with hgone | rfl
      · exact ((Text.singleGaps_append hgone _).1 hrest.2.1).2.1
      · exact List.IsChain.nil
    have hsource : front ++ (kept ++ gone ++ tail) = front ++ kept ++ gone ++ tail := by
      simp only [List.append_assoc]
    have hstep := ih hlater (fun f hf => hnone f (List.mem_cons_of_mem _ hf))
      (fun f hf => hsource ▸ hlines f (List.mem_cons_of_mem _ hf)) htail (hdone.append hkept)
    rw [hsplice, hnone e List.mem_cons_self, List.append_nil, ← List.append_assoc, hstop, hstep,
      Text.singleGaps_append hdone, startsBlank_kept htakes, List.forall_mem_cons,
      meets_head h hstart hstop]
    have hsame : (∀ f ∈ es, ¬ Meets (front ++ kept ++ gone) tail (done ++ kept) es f) ↔
        ∀ f ∈ es, ¬ Meets front (kept ++ gone ++ tail) done (e :: es) f := by
      refine forall₂_congr fun f hf => ?_
      rw [meets_tail h hstart hstop hf]
    rw [hsame]
    constructor
    · rintro ⟨⟨hgaps, _, hfirst⟩, hhead, hall⟩
      exact ⟨hgaps, hfirst, hhead, hall⟩
    · rintro ⟨hgaps, hfirst, hhead, hall⟩
      exact ⟨⟨hgaps, hrest.1, hfirst⟩, hhead, hall⟩

/-- Gaps are brought together only by a removal that starts where another one ends. -/
theorem Meets.stacked {front rest done : Text} {es : List Edit} {f : Edit}
    (h : Edit.InOrder (front ++ rest) (width front) es)
    (hlines : ∀ e ∈ es, ∃ above gone below, TakesLines (front ++ rest) e above gone below)
    (hfront : EndsLine front ∨ rest = []) (hdone : EndsLine done) (hf : f ∈ es)
    (hmeets : Meets front rest done es f) :
    f.start = width front ∨ ∃ e ∈ es, e.stop = f.start := by
  induction es generalizing front rest done with
  | nil => cases hf
  | cons e es ih =>
    obtain ⟨kept, gone, tail, rfl, hstart, hstop, _⟩ := h.splice_cons
    obtain ⟨_, _, _, hplace⟩ := hlines e List.mem_cons_self
    have htakes := hplace.of_place hstart hstop
    have hkept : EndsLine kept := htakes.ends_above.of_append
    rcases List.mem_cons.1 hf with rfl | hf
    · rw [meets_head h hstart hstop] at hmeets
      by_cases hnil : kept = []
      · left
        rw [hstart, hnil, List.append_nil]
      · -- The line above stands in the source, so the gap below is not left.
        have hends : EndsLine front := by
          rcases hfront with hfront | hnone
          · exact hfront
          · simp [hnil] at hnone
        have habove : endsBlank (front ++ kept) = true := by
          rw [Text.endsBlank_append hends hnil, ← Text.endsBlank_append hdone hnil]
          exact hmeets.1
        rw [htakes.gap habove] at hmeets
        cases hmeets.2
    · rw [meets_tail h hstart hstop hf] at hmeets
      have hsource : front ++ (kept ++ gone ++ tail) = front ++ kept ++ gone ++ tail := by
        simp only [List.append_assoc]
      have hnext : EndsLine (front ++ kept ++ gone) ∨ tail = [] :=
        htakes.ends_gone.imp_left htakes.ends_above.append
      rcases ih (h.tail_of_stop hstop) (fun g hg => hsource ▸ hlines g (List.mem_cons_of_mem _ hg))
        hnext (hdone.append hkept) hf hmeets with hat | ⟨g, hg, hgf⟩
      · exact Or.inr ⟨e, List.mem_cons_self, by rw [hat, hstop]⟩
      · exact Or.inr ⟨g, List.mem_cons_of_mem _ hg, hgf⟩

/-! ## The law -/

/-- Two gaps that meet are brought together by two removals, one right behind the other. -/
theorem exists_bringsGapsTogether {source : Text} {edits : List Edit}
    (h : Edit.InOrder source 0 (edits.mergeSort Edit.before))
    (hlines : ∀ e ∈ edits.mergeSort Edit.before,
      ∃ above gone below, TakesLines source e above gone below) :
    (∃ f ∈ edits.mergeSort Edit.before, Meets [] source [] (edits.mergeSort Edit.before) f) ↔
      ∃ upper ∈ edits, ∃ lower ∈ edits, BringsGapsTogether source edits upper lower := by
  constructor
  · rintro ⟨f, hf, hmeets⟩
    have hwhere := @Meets.stacked [] source [] _ f h hlines (Or.inl (Or.inl rfl)) (Or.inl rfl) hf
      hmeets
    obtain ⟨u, w, v, hsource, hstart, hstop, habove, hbelow⟩ := hmeets
    rw [Edit.isCovered_ordered] at habove
    rcases hwhere with hzero | ⟨e, he, hef⟩
    · have hnil : u = [] := by
        cases u with
        | nil => rfl
        | cons c u =>
          have := c.utf8Size_pos
          rw [hzero] at hstart
          simp at hstart
          omega
      subst hnil
      cases habove
    · refine ⟨e, List.mem_mergeSort.1 he, f, List.mem_mergeSort.1 hf, hef, ?_, ?_⟩
      · exact ⟨u, w ++ v, Text.cut?_eq_some_iff.2 ⟨by rw [hsource, List.append_assoc], hstart.symm⟩,
          habove⟩
      · exact ⟨u ++ w, v, Text.cut?_eq_some_iff.2 ⟨hsource, hstop.symm⟩, hbelow⟩
  · rintro ⟨upper, _, f, hf, _, ⟨u, x, hcut, habove⟩, y, v, hcut', hbelow⟩
    have hmem : f ∈ edits.mergeSort Edit.before := List.mem_mergeSort.2 hf
    obtain ⟨hsource, hu⟩ := Text.of_cut? hcut
    obtain ⟨hsource', hy⟩ := Text.of_cut? hcut'
    have hle := (Edit.fits_iff.1 (h.fits f hmem)).1
    obtain ⟨w, rfl, rfl⟩ := Text.append_of_width_le (hsource.symm.trans hsource') (by omega)
    refine ⟨f, hmem, u, w, v, hsource', hu.symm, hy.symm, ?_, hbelow⟩
    rw [Edit.isCovered_ordered]
    exact habove

/-- Members that stand alone on their lines are removed together, and two blank lines are brought
together exactly where two of the members stand one directly below the other, with a blank line
below the lower one and a blank line left above it. So members of which none stands directly
below another leave single gaps. -/
theorem gaps_meet_exactly_around_stacked_members (source : Text) (spans : List Span)
    (hgaps : SingleGaps source)
    (hsolid : ∀ s ∈ spans, isSolidAt source s.start s.stop = true)
    (halone : ∀ s ∈ spans, standsAlone source s = true) (hapart : spans.Pairwise Span.Apart) :
    ∃ edits text, Removes source spans edits ∧ Edit.applyAll source edits = .ok text ∧
      (¬ SingleGaps text ↔
        ∃ upper ∈ edits, ∃ lower ∈ edits, BringsGapsTogether source edits upper lower) := by
  obtain ⟨edits, hedits⟩ := exists_removes fun s hs => fits_of_isSolidAt (hsolid s hs)
  obtain ⟨text, htext, _⟩ := hedits.exists_text hsolid hapart
  refine ⟨edits, text, hedits, htext, ?_⟩
  obtain ⟨horder, rfl⟩ := Edit.applyAll_eq_ok htext
  have hlines : ∀ e ∈ edits.mergeSort Edit.before,
      ∃ above gone below, TakesLines source e above gone below := by
    intro e he
    obtain ⟨s, hs, hse⟩ := hedits.exists_span (List.mem_mergeSort.1 he)
    exact exists_takesLines hgaps (hsolid s hs) (halone s hs) hse
  have hnone : ∀ e ∈ edits.mergeSort Edit.before, e.replacement = [] := fun e he =>
    hedits.replacement (List.mem_mergeSort.1 he)
  have hrun : SingleGaps (Edit.splice source 0 (edits.mergeSort Edit.before)) ↔
      ∀ f ∈ edits.mergeSort Edit.before, ¬ Meets [] source [] (edits.mergeSort Edit.before) f := by
    have hsplice := @singleGaps_splice [] source [] _ horder hnone hlines hgaps (Or.inl rfl)
    rw [List.nil_append, Text.width_nil] at hsplice
    rw [hsplice]
    constructor
    · exact fun hall => hall.2.2
    · exact fun hall => ⟨List.IsChain.nil, fun hstart => Bool.false_ne_true hstart.1, hall⟩
  rw [← exists_bringsGapsTogether horder hlines, hrun]
  push Not
  rfl

/-- Two members stand one directly below the other, between blank lines. -/
def stackedSource : Text :=
  "class A \x7b\n  x = 1;\n\n  a() \x7b\x7d\n  b() \x7b\x7d\n\n  c() \x7b\x7d\n\x7d\n".toList

def stackedSpans : List Span := [.onLine 4 20 22 28, .onLine 5 29 31 37]

theorem stacked_members_leave_two_blank_lines :
    SingleGaps stackedSource ∧
    (∀ s ∈ stackedSpans, isSolidAt stackedSource s.start s.stop = true) ∧
    (∀ s ∈ stackedSpans, standsAlone stackedSource s = true) ∧
    stackedSpans.Pairwise Span.Apart ∧
    ∃ edits text, Removes stackedSource stackedSpans edits ∧
      Edit.applyAll stackedSource edits = .ok text ∧ ¬ SingleGaps text := by
  have hgaps : SingleGaps stackedSource := by decide +kernel
  have hsolid : ∀ s ∈ stackedSpans, isSolidAt stackedSource s.start s.stop = true := by
    decide +kernel
  have halone : ∀ s ∈ stackedSpans, standsAlone stackedSource s = true := by decide +kernel
  have hapart : stackedSpans.Pairwise Span.Apart := by decide
  obtain ⟨edits, text, hedits, htext, hmeet⟩ :=
    gaps_meet_exactly_around_stacked_members stackedSource stackedSpans hgaps hsolid halone hapart
  refine ⟨hgaps, hsolid, halone, hapart, edits, text, hedits, htext, hmeet.2 ?_⟩
  have hupper : removalEdit? stackedSource (.onLine 4 20 22 28) = some (.delete 20 29) := by
    decide +kernel
  have hlower : removalEdit? stackedSource (.onLine 5 29 31 37) = some (.delete 29 38) := by
    decide +kernel
  obtain rfl : edits = [.delete 20 29, .delete 29 38] := by
    obtain ⟨e, _, he, hrest, rfl⟩ := List.forall₂_cons_left_iff.1 hedits
    obtain ⟨f, _, hf, hnil, rfl⟩ := List.forall₂_cons_left_iff.1 hrest
    rw [hupper] at he
    rw [hlower] at hf
    cases he
    cases hf
    rw [List.forall₂_nil_left_iff.1 hnil]
  refine ⟨.delete 20 29, by simp, .delete 29 38, by simp, rfl, ?_, ?_⟩
  · exact ⟨stackedSource.take 29, stackedSource.drop 29, by decide +kernel, by decide +kernel⟩
  · exact ⟨stackedSource.take 38, stackedSource.drop 38, by decide +kernel, by decide +kernel⟩

end Uplift.Revise
