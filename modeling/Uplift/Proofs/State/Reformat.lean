-- Reading a literal, writing it out and reading it again. A comment that is one
-- remark is read again as it is. Behind a line comment, a newline that came
-- with a block comment ends the remark, and the rest is read as code: then the
-- literal is not the same any more.
import Uplift.Proofs.State.Broken
import Uplift.Proofs.State.Ink
import Uplift.Proofs.State.Reading
import Uplift.Proofs.State.RoundTrip

namespace Uplift.State

open Text (isBlank isBlankText isSolid)

/-! ## Entries of a closed literal -/

/-- A kept text has blanks around its colon only, and no semicolon at its end. -/
theorem RawEntry.Kept.cut {raw : RawEntry} (h : raw.Kept) {k v : Text}
    (htext : raw.text = k ++ ':' :: v) :
    ∃ r l, isBlankText r = true ∧ isBlankText l = true ∧ k = Text.trim k ++ r ∧
      v = l ++ Text.trim v ∧ (Text.trim v).getLast? ≠ some ';' := by
  have hsolid := h.solid
  obtain ⟨l, r, hk, hl, hr, _⟩ := Text.exists_pad k
  obtain ⟨l', r', hv, hl', hr', _⟩ := Text.exists_pad v
  rw [htext, hv] at hsolid
  obtain rfl : r' = [] := Text.eq_nil_of_isSolid_right
    (t := k ++ ':' :: (l' ++ Text.trim v)) (by simpa using hsolid) hr'
  rw [hk] at hsolid
  obtain rfl : l = [] := Text.eq_nil_of_isSolid_left
    (t := Text.trim k ++ r ++ ':' :: (l' ++ Text.trim v)) (by simpa using hsolid) hl
  rw [List.nil_append] at hk
  rw [List.append_nil] at hv
  refine ⟨r, l', hr, hl', hk, hv, fun hsemi => Lexis.member_closes_last h.closes ?_⟩
  rw [htext, hv, ← List.cons_append, ← List.append_assoc, List.getLast?_append, hsemi]
  rfl

/-- An entry of a closed literal is written so that it can be read again, unless the colon it is
cut at stands in a line comment. -/
theorem RawEntry.Kept.entry {raw : RawEntry} {e : Entry} (h : raw.Kept)
    (he : raw.toEntry? = some e) (hline : ((Spot.code 0).after e.key).isLine = false) :
    e.Legible ∧ e.raw.toEntry? = some e := by
  obtain ⟨hcomment, ⟨hkey, hvalue⟩ | ⟨k, v, hcut, htext, hkey, hvalue, hk, hv⟩⟩ :=
    RawEntry.toEntry?_cases he
  · have hraw : e.raw = raw := by
      rw [Entry.raw, Entry.render_of_no_value hvalue, hkey, hcomment]
    have hrender : e.render = raw.text := congrArg RawEntry.text hraw
    refine ⟨⟨?_, ?_⟩, by rw [hraw]; exact he⟩
    · rw [hrender]
      exact Lexis.member_within_entry.closes h.closes
    · rw [hrender]
      exact h.solid
  · obtain ⟨r, l, hr, hl, hkpad, hvpad, hlast⟩ := h.cut htext
    rw [Text.trimTerminator_eq_trim hlast] at hvalue
    rw [← hkey] at hkpad
    rw [← hvalue] at hvpad hlast
    have hkey_solid : isSolid e.key = true :=
      (Text.trim_eq_self_iff.1 (by rw [hkey, Text.trim_trim])).resolve_left hk
    have hvalue_solid : isSolid e.value = true :=
      (Text.trim_eq_self_iff.1 (by rw [hvalue, Text.trim_trim])).resolve_left hv
    refine ⟨⟨?_, ?_⟩, ?_⟩
    · have hcloses : Lexis.member.closes (e.key ++ (r ++ ':' :: l) ++ e.value) = true := by
        have hall := h.closes
        rw [htext, hkpad, hvpad] at hall
        simpa using hall
      have hneutral : ∀ c ∈ r ++ ':' :: l, isNeutral c = true := by
        intro c hc
        rcases List.mem_append.1 hc with hc | hc
        · exact isNeutral_of_isBlankText hr c hc
        · rcases List.mem_cons.1 hc with rfl | hc
          · rfl
          · exact isNeutral_of_isBlankText hl c hc
      rw [Entry.render_of_value hv]
      exact Lexis.member_within_entry.closes
        (Lexis.member_closes_gap hline hneutral colon_space_neutral (by simp) (by simp) hcloses)
    · rw [Entry.render_of_value hv]
      exact Text.isSolid_append _ hkey_solid hvalue_solid
    · refine Entry.toEntry?_raw hkey_solid hvalue_solid hlast
        (cutColon?_trimmed (v := v) (' ' :: e.value) (by simp) hr ?_)
      rw [htext, hkpad] at hcut
      simpa using hcut

/-- The literal with the given interior. -/
def braced (inner : Text) : Text := '{' :: (inner ++ ['}'])

/-- The colon that the entry is cut at does not stand in a line comment. -/
def Entry.KeyEnds (e : Entry) : Prop := ((Spot.code 0).after e.key).isLine = false

instance (e : Entry) : Decidable e.KeyEnds :=
  inferInstanceAs (Decidable (((Spot.code 0).after e.key).isLine = false))

section Closed

variable {inner : Text} {e : Entry}

theorem parseLiteral_braced (inner : Text) : parseLiteral (braced inner) =
    Props.ofEntries ((splitEntries inner).filterMap RawEntry.toEntry?) := by
  unfold parseLiteral braced
  rw [interior_braces]

theorem entry_of_closed (hinner : Lexis.interior.closes inner = true)
    (he : e ∈ (parseLiteral (braced inner)).entries) :
    ∃ raw : RawEntry, raw.Kept ∧ raw.toEntry? = some e := by
  rw [parseLiteral_braced] at he
  obtain ⟨raw, hraw, hentry⟩ := List.mem_filterMap.1 (Props.mem_of_mem_ofEntries he)
  exact ⟨raw, splitEntries_kept hinner raw hraw, hentry⟩

theorem spoken_of_closed (hinner : Lexis.interior.closes inner = true)
    (he : e ∈ (parseLiteral (braced inner)).entries) {c : Text} (hc : e.comment = some c) :
    Spoken c := by
  obtain ⟨raw, hkept, hentry⟩ := entry_of_closed hinner he
  exact hkept.comment c (by rw [← (RawEntry.toEntry?_cases hentry).1, hc])

theorem legible_of_closed (hinner : Lexis.interior.closes inner = true)
    (he : e ∈ (parseLiteral (braced inner)).entries) (hkey : e.KeyEnds) :
    e.Legible ∧ e.raw.toEntry? = some e := by
  obtain ⟨raw, hkept, hentry⟩ := entry_of_closed hinner he
  exact hkept.entry hentry hkey

theorem remarked_iff_of_closed (hinner : Lexis.interior.closes inner = true)
    (he : e ∈ (parseLiteral (braced inner)).entries) :
    e.Remarked ↔ ∀ c, e.comment = some c → Remark c :=
  ⟨fun h c hc => (h c hc).1, fun h c hc => ⟨h c hc, (spoken_of_closed hinner he hc).trimmed⟩⟩

end Closed

/-! ## The law -/

/-- If all the ink of a literal is found in the state that is read, no key was found twice and no
entry was dropped: each entry of the state is read from one of the literal. -/
theorem comments_of_parseLiteral {inner : Text} {p : Props} (h : parseLiteral (braced inner) = p)
    (hink : inkOf (splitEntries inner) ≤ inkOf (p.entries.map Entry.raw)) :
    p.entries.map (·.comment) = (splitEntries inner).map (·.comment) := by
  rw [parseLiteral_braced] at h
  have hfew := inkOf_filterMap_le (splitEntries inner)
  have hall := Props.ofEntries_of_ink (by rw [h]; exact hfew.trans hink)
  rw [h] at hall
  rw [hall] at hink ⊢
  exact comments_of_ink hink

theorem formatNested_lines {p : Props} (h : p.entries.any Entry.needsLine = true)
    (indent unit : Text) : p.formatNested indent unit =
      braced ('\n' :: (renderLines (indent ++ unit) p.entries ++ indent)) := by
  have hempty : p.isEmpty = false := by
    rw [Props.isEmpty, List.isEmpty_eq_false_iff]
    rintro hnil
    rw [hnil] at h
    cases h
  unfold Props.formatNested braced
  rw [hempty, h]
  simp

/-- What is read from one line for each entry has no more ink than the entries. -/
theorem inkOf_splitEntries_lines {lead indent : Text} {es : List Entry}
    (hlead : isBlankText lead = true) (hindent : isBlankText indent = true) (hes : es ≠ []) :
    inkOf (splitEntries ('\n' :: (renderLines lead es ++ indent))) ≤ inkOf (es.map Entry.raw) := by
  have hread := splitEntries_ink ('\n' :: (renderLines lead es ++ indent))
  have hwritten := ink_renderLines hlead hes
  have hink : Text.ink ('\n' :: (renderLines lead es ++ indent)) = Text.ink (renderLines lead es) := by
    rw [show '\n' :: (renderLines lead es ++ indent) = ['\n'] ++ renderLines lead es ++ indent by
      simp, Text.ink_append, Text.ink_append, Text.ink_of_blank hindent,
      show Text.ink ['\n'] = 0 from rfl, Nat.zero_add, Nat.add_zero]
  omega

/-- With a broken comment among its entries, a state is not read back. -/
theorem broken_not_read_back {p : Props} {indent unit a rest : Text} {es es' : List Entry}
    {e : Entry} (hindent : isBlankText indent = true) (hunit : isBlankText unit = true)
    (hp : p.entries = es ++ e :: es') (hes : ∀ x ∈ es, x.Legible ∧ x.Remarked) (he : e.Legible)
    (hc : e.comment = some (a ++ '\n' :: rest)) (ha : Remark a) :
    parseLiteral (p.formatNested indent unit) ≠ p := by
  intro hback
  have hlead : isBlankText (indent ++ unit) = true := Text.isBlankText_append.2 ⟨hindent, hunit⟩
  have hlines : p.entries.any Entry.needsLine = true :=
    List.any_eq_true.2 ⟨e, by simp [hp], by simp [Entry.needsLine, hc]⟩
  rw [formatNested_lines hlines] at hback
  have hcomments := comments_of_parseLiteral hback
    (inkOf_splitEntries_lines hlead hindent (by simp [hp]))
  obtain ⟨u, m, more, hraws, hm⟩ := splitEntries_broken indent es' hlead hes he hc ha
  rw [hp, hraws, List.map_append, List.map_append, List.map_map] at hcomments
  have hcomment := (List.cons.inj (List.append_inj hcomments (by simp)).2).1
  exact broken_ne_joined hm (Option.some.inj (hc.symm.trans hcomment))

/-- A closed literal without semicolons outside brackets, whose entries are not cut inside line
comments, is the same after it is read and written out exactly when the comment of each entry is
one remark: block comments, and behind them a line comment at most. -/
theorem a_literal_survives_exactly_when_its_comments_are_remarks (inner indent unit : Text)
    (hinner : Lexis.interior.closes inner = true) (hindent : isBlankText indent = true)
    (hunit : isBlankText unit = true)
    (hkeys : ∀ e ∈ (parseLiteral (braced inner)).entries, e.KeyEnds) :
    parseLiteral ((parseLiteral (braced inner)).formatNested indent unit) =
        parseLiteral (braced inner) ↔
      ∀ e ∈ (parseLiteral (braced inner)).entries, ∀ c, e.comment = some c → Remark c := by
  have hlegible := fun e he => legible_of_closed hinner he (hkeys e he)
  constructor
  · intro hback e he
    rw [← remarked_iff_of_closed hinner he]
    by_contra hnot
    -- The first comment that is no remark is broken.
    classical
    obtain ⟨x, hfirst⟩ : ∃ x, (parseLiteral (braced inner)).entries.find?
        (fun x => decide (¬ x.Remarked)) = some x :=
      Option.isSome_iff_exists.1 (List.find?_isSome.2 ⟨e, he, by simpa using hnot⟩)
    obtain ⟨hx, es, es', hp, hes⟩ := List.find?_eq_some_iff_append.1 hfirst
    have hmem : x ∈ (parseLiteral (braced inner)).entries := by simp [hp]
    obtain ⟨c, hc, hbroken⟩ : ∃ c, x.comment = some c ∧ Broken c := by
      have hx : ¬ x.Remarked := by simpa using hx
      rw [remarked_iff_of_closed hinner hmem] at hx
      push Not at hx
      obtain ⟨c, hc, hno⟩ := hx
      exact ⟨c, hc, (spoken_of_closed hinner hmem hc).remark_or_broken.resolve_left hno⟩
    obtain ⟨a, rest, rfl, ha⟩ := hbroken
    refine broken_not_read_back hindent hunit hp (fun y hy => ⟨?_, ?_⟩) (hlegible x hmem).1 hc ha
      hback
    · exact (hlegible y (by simp [hp, hy])).1
    · simpa using hes y hy
  · intro hremarks
    refine parseLiteral_formatNested hindent hunit (fun e he => ⟨(hlegible e he).1, ?_,
      (hlegible e he).2⟩) ?_
    · exact (remarked_iff_of_closed hinner he).2 (hremarks e he)
    · rw [parseLiteral_braced]
      exact Props.nodup_keys_ofEntries _

-- Cut inside a line comment, a key loses the newline that ended the comment, and what is
-- written behind it is read as part of the comment.
example :
    let p := parseLiteral (braced " [ // ] :\n  x ]: 1, b: 2 ".toList)
    p.entries.length = 2 ∧ ¬ (∀ e ∈ p.entries, e.KeyEnds) ∧
      (parseLiteral (p.formatNested [] [' ', ' '])).entries.length = 1 := by
  decide +kernel

/-- The interior of a literal with a remark of two comments. -/
def remarkInner : Text := "\n  a: 1, /* x */ // y\n  b: [2, // z\n 3]\n".toList

/-- The interior of a literal with a line comment, and on the next lines a block comment. -/
def brokenInner : Text := "\n  a: 1 // x\n  /* m\n  n */,\n  b: 2\n".toList

theorem not_remark_of_newline {body : Text} (h : '\n' ∈ body) : ¬ Remark ('/' :: '/' :: body) := by
  intro hr
  generalize ht : '/' :: '/' :: body = t at hr
  cases hr with
  | line hu =>
    obtain ⟨body', rfl, hbody⟩ := hu
    cases ht
    exact hbody h
  | block hb =>
    obtain ⟨body', rfl, _⟩ := hb
    cases ht
  | more hb _ =>
    obtain ⟨body', rfl, _⟩ := hb
    cases ht

/-- The first sample survives, and the second does not. -/
theorem a_remark_survives_and_a_broken_comment_does_not :
    parseLiteral ((parseLiteral (braced remarkInner)).formatNested [] [' ', ' ']) =
        parseLiteral (braced remarkInner) ∧
      parseLiteral ((parseLiteral (braced brokenInner)).formatNested [] [' ', ' ']) ≠
        parseLiteral (braced brokenInner) := by
  have hlaw := a_literal_survives_exactly_when_its_comments_are_remarks
  constructor
  · refine (hlaw remarkInner [] [' ', ' '] (by decide +kernel) rfl rfl (by decide +kernel)).2 ?_
    have hcomments : ∀ e ∈ (parseLiteral (braced remarkInner)).entries,
        e.comment = none ∨ e.comment = some "/* x */ // y".toList := by decide +kernel
    intro e he c hc
    rcases hcomments e he with hnone | hsome
    · rw [hnone] at hc
      cases hc
    · obtain rfl := Option.some.inj (hc.symm.trans hsome)
      have hblock : IsBlockComment "/* x */".toList := ⟨" x ".toList, by decide +kernel,
        by decide +kernel⟩
      have hline : IsLineText "// y".toList := ⟨" y".toList, by decide +kernel, by decide +kernel⟩
      have hjoined : "/* x */ // y".toList = "/* x */".toList ++ ' ' :: "// y".toList := by
        decide +kernel
      rw [hjoined]
      exact .more hblock (.line hline)
  · intro hback
    have hremarks :=
      (hlaw brokenInner [] [' ', ' '] (by decide +kernel) rfl rfl (by decide +kernel)).1 hback
    have hcomment : ∃ e ∈ (parseLiteral (braced brokenInner)).entries,
        e.comment = some ('/' :: '/' :: " x /* m\n  n */".toList) := by decide +kernel
    obtain ⟨e, he, hc⟩ := hcomment
    exact not_remark_of_newline (by decide +kernel) (hremarks e he _ hc)

end Uplift.State
