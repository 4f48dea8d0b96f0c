-- Writing a state and reading it back. Whatever layout the comments call for,
-- the state that is read is the state that was written: its entries, their
-- order and their comments.
import Uplift.Proofs.State.Colon
import Uplift.Proofs.State.Keys
import Uplift.Proofs.State.Layout

namespace Uplift.State

open Text (isBlank isBlankText isSolid)

/-! ## Well-formed entries -/

namespace Entry

/-- An entry as a writer of state means it. The key is trimmed, has no comment, and has no
comma or colon outside brackets and quotes. The value is empty or trimmed, ends in no semicolon,
and has no comma and no comment outside brackets and quotes; a comment inside its brackets ends
there, without blanks at its end. The comment is one comment. -/
structure WellFormed (e : Entry) : Prop where
  key_ne_nil : e.key ≠ []
  key_trimmed : Text.trim e.key = e.key
  key_closes : Lexis.key.closes e.key = true
  value_trimmed : Text.trim e.value = e.value
  value_last : e.value.getLast? ≠ some ';'
  value_closes : Lexis.entry.closes e.value = true
  comment : ∀ c, e.comment = some c → IsLineComment c ∨ IsBlockComment c

variable {e : Entry}

theorem WellFormed.key_solid (h : e.WellFormed) : isSolid e.key = true :=
  (Text.trim_eq_self_iff.1 h.key_trimmed).resolve_left h.key_ne_nil

theorem WellFormed.value_solid (h : e.WellFormed) (hv : e.value ≠ []) : isSolid e.value = true :=
  (Text.trim_eq_self_iff.1 h.value_trimmed).resolve_left hv

theorem WellFormed.legible (h : e.WellFormed) : e.Legible := by
  have hkey := Lexis.key_within_entry.closes h.key_closes
  by_cases hv : e.value = []
  · rw [← render_of_no_value hv] at hkey
    exact ⟨hkey, by rw [render_of_no_value hv]; exact h.key_solid⟩
  · obtain ⟨hkey, hclosed⟩ := Lexis.closes_iff.1 hkey
    obtain ⟨hsound, hline, hidle⟩ := Spot.of_isClosed hclosed
    obtain ⟨hvalue, hend⟩ := Lexis.closes_iff.1 h.value_closes
    have hcolon : (Spot.code 0).after (e.key ++ [':', ' ']) = .code 0 := by
      rw [Spot.after_append, Spot.after_neutral hsound hline colon_space_neutral (by simp), hidle]
    constructor
    · rw [render_of_value hv, Lexis.closes_iff, Lexis.accepts_append, Lexis.accepts_append,
        Spot.after_append _ (_ ++ _), hcolon]
      exact ⟨⟨⟨hkey, Lexis.entry_isOpen.accepts hsound hline colon_space_neutral⟩, hvalue⟩, hend⟩
    · rw [render_of_value hv]
      exact Text.isSolid_append _ h.key_solid (h.value_solid hv)

theorem WellFormed.remarked (h : e.WellFormed) : e.Remarked := by
  intro c hc
  rcases h.comment c hc with hline | hblock
  · exact ⟨.line hline.1, hline.2⟩
  · exact ⟨.block hblock, hblock.trimEnd⟩

/-- The entry that is read is the entry that was written. -/
theorem WellFormed.toEntry?_raw (h : e.WellFormed) : e.raw.toEntry? = some e := by
  by_cases hv : e.value = []
  · have hcut : cutColon? 0 none false e.key = none := by
      simpa [cutColon?] using cutColon?_key [] h.key_closes
    have hkey : e.key.isEmpty = false := by simpa using h.key_ne_nil
    unfold RawEntry.toEntry? raw
    simp only [render_of_no_value hv, hcut, hkey, ← hv]
    rfl
  · refine Entry.toEntry?_raw h.key_solid (h.value_solid hv) h.value_last ?_
    rw [cutColon?_key _ h.key_closes]
    simp [cutColon?, isQuote, isOpener, isCloser]

end Entry

/-! ## The law -/

/-- What is read from a written state, when each entry is read as it was written. -/
theorem parseLiteral_formatNested {p : Props} {indent unit : Text}
    (hindent : isBlankText indent = true) (hunit : isBlankText unit = true)
    (hes : ∀ e ∈ p.entries, e.Legible ∧ e.Remarked ∧ e.raw.toEntry? = some e)
    (hkeys : p.keys.Nodup) : parseLiteral (p.formatNested indent unit) = p := by
  have hread : (p.entries.map Entry.raw).filterMap RawEntry.toEntry? = p.entries := by
    rw [List.filterMap_map]
    exact (List.filterMap_congr fun e he => (hes e he).2.2).trans List.filterMap_some
  unfold parseLiteral
  rw [splitEntries_formatNested hindent hunit fun e he => ⟨(hes e he).1, (hes e he).2.1⟩, hread,
    Props.ofEntries_of_nodup hkeys]

/-- A state with well-formed entries, each under a key of its own, is read back as it was
written, at every indentation. -/
theorem a_written_state_reads_back (p : Props) (hkeys : p.keys.Nodup)
    (hes : ∀ e ∈ p.entries, e.WellFormed) (indent unit : Text)
    (hindent : isBlankText indent = true) (hunit : isBlankText unit = true) :
    parseLiteral (p.formatNested indent unit) = p :=
  parseLiteral_formatNested hindent hunit
    (fun e he => ⟨(hes e he).legible, (hes e he).remarked, (hes e he).toEntry?_raw⟩) hkeys

/-- A state with both kinds of comments, and one inside the brackets of a value. -/
def sampleState : Props :=
  ⟨[⟨"a".toList, "[1, 2] / 3".toList, some "/* one\n two */".toList⟩,
    ⟨"'b:'".toList, "f(x, // y\n z)".toList, none⟩,
    ⟨"...rest".toList, [], some "// last".toList⟩]⟩

theorem sampleState_wellFormed : ∀ e ∈ sampleState.entries, e.WellFormed := by
  have htext : ∀ e ∈ sampleState.entries, e.key ≠ [] ∧ Text.trim e.key = e.key ∧
      Lexis.key.closes e.key = true ∧ Text.trim e.value = e.value ∧
      e.value.getLast? ≠ some ';' ∧ Lexis.entry.closes e.value = true := by
    decide +kernel
  have hcomment : ∀ e ∈ sampleState.entries, e.comment = none ∨
      e.comment = some "/* one\n two */".toList ∨ e.comment = some "// last".toList := by
    decide +kernel
  intro e he
  obtain ⟨h1, h2, h3, h4, h5, h6⟩ := htext e he
  refine ⟨h1, h2, h3, h4, h5, h6, fun c hc => ?_⟩
  rcases hcomment e he with hnone | hblock | hline
  · rw [hnone] at hc
    cases hc
  · obtain rfl := Option.some.inj (hc.symm.trans hblock)
    exact Or.inr ⟨" one\n two ".toList, by decide +kernel, by decide +kernel⟩
  · obtain rfl := Option.some.inj (hc.symm.trans hline)
    exact Or.inl ⟨⟨" last".toList, by decide +kernel, by decide +kernel⟩, by decide +kernel⟩

/-- The sample is read back from one line for each of its entries. -/
theorem sampleState_reads_back :
    sampleState.keys.Nodup ∧ (∀ e ∈ sampleState.entries, e.WellFormed) ∧
      parseLiteral (sampleState.formatNested ['\t'] [' ', ' ']) = sampleState :=
  ⟨by decide +kernel, sampleState_wellFormed, a_written_state_reads_back sampleState (by decide +kernel)
    sampleState_wellFormed ['\t'] [' ', ' '] (by decide +kernel) (by decide +kernel)⟩

end Uplift.State
