-- The colon of an entry. It is the first one outside brackets and quotes, so
-- what stands before it is the key. A key without comments is passed over as a
-- whole, and blanks before the colon or other text behind it do not matter.
import Uplift.Proofs.State.Lexis
import Uplift.State.Literal

namespace Uplift.State

open Text (isBlank isBlankText)

/-! ## One character -/

/-- A character is the colon, or the look goes on behind it. A blank changes nothing there. -/
theorem cutColon?_cons {depth : Nat} {quote : Option Char} (escaped : Bool)
    (hq : ∀ q, quote = some q → isQuote q = true) (c : Char) :
    (c = ':' ∧ depth = 0 ∧ quote = none ∧
        ∀ t, cutColon? depth quote escaped (c :: t) = some ([], t)) ∨
      ∃ depth' quote' escaped', (∀ q, quote' = some q → isQuote q = true) ∧
        (isBlank c = true → depth' = depth ∧ quote' = quote) ∧
        ∀ t, cutColon? depth quote escaped (c :: t) =
          (cutColon? depth' quote' escaped' t).map fun (a, b) => (c :: a, b) := by
  have hnone : ∀ q, (none : Option Char) = some q → isQuote q = true := fun q h => by cases h
  cases quote with
  | some q =>
    right
    by_cases he : escaped = true
    · exact ⟨depth, some q, false, hq, fun _ => ⟨rfl, rfl⟩, fun t => by simp [cutColon?, he]⟩
    by_cases hback : c = '\\'
    · exact ⟨depth, some q, true, hq, fun _ => ⟨rfl, rfl⟩, fun t => by simp [cutColon?, he, hback]⟩
    by_cases hclose : c = q
    · subst hclose
      refine ⟨depth, none, false, hnone, fun hb => ?_, fun t => by simp [cutColon?, he, hback]⟩
      have hquote := hq c rfl
      rw [isQuote_of_isNeutral (isNeutral_of_isBlank hb)] at hquote
      cases hquote
    · exact ⟨depth, some q, false, hq, fun _ => ⟨rfl, rfl⟩, fun t => by
        simp [cutColon?, he, hback, hclose]⟩
  | none =>
    by_cases hquote : isQuote c = true
    · refine Or.inr ⟨depth, some c, false, ?_, fun hb => ?_, fun t => by simp [cutColon?, hquote]⟩
      · rintro _ ⟨⟩
        exact hquote
      · rw [isQuote_of_isNeutral (isNeutral_of_isBlank hb)] at hquote
        cases hquote
    by_cases hopen : isOpener c = true
    · refine Or.inr ⟨depth + 1, none, false, hnone, fun hb => ?_, fun t => by
        simp [cutColon?, hquote, hopen]⟩
      rw [isOpener_of_isNeutral (isNeutral_of_isBlank hb)] at hopen
      cases hopen
    by_cases hclose : isCloser c = true
    · refine Or.inr ⟨depth - 1, none, false, hnone, fun hb => ?_, fun t => by
        simp [cutColon?, hquote, hopen, hclose]⟩
      rw [isCloser_of_isNeutral (isNeutral_of_isBlank hb)] at hclose
      cases hclose
    by_cases hcolon : c = ':' ∧ depth = 0
    · exact Or.inl ⟨hcolon.1, hcolon.2, rfl, fun t => by
        simp only [cutColon?, hquote, hopen, hclose, if_pos hcolon]
        rfl⟩
    · exact Or.inr ⟨depth, none, false, hnone, fun _ => ⟨rfl, rfl⟩, fun t => by
        simp only [cutColon?, hquote, hopen, hclose, if_neg hcolon]
        rfl⟩

theorem cutColon?_eq_some {depth : Nat} {quote : Option Char} {escaped : Bool} {t k v : Text}
    (hq : ∀ q, quote = some q → isQuote q = true)
    (h : cutColon? depth quote escaped t = some (k, v)) : t = k ++ ':' :: v := by
  induction t generalizing depth quote escaped k with
  | nil => cases h
  | cons c t ih =>
    rcases cutColon?_cons escaped hq c with ⟨rfl, _, _, hcut⟩ | ⟨d, q, e, hq', _, hcut⟩
    · rw [hcut t] at h
      cases h
      rfl
    · rw [hcut t, Option.map_eq_some_iff] at h
      obtain ⟨⟨a, b⟩, hab, he⟩ := h
      cases he
      rw [ih hq' hab]
      rfl

/-- Blanks before the colon are outside brackets and quotes. -/
theorem cutColon?_blanks {depth : Nat} {quote : Option Char} {escaped : Bool} {pad v : Text}
    (hq : ∀ q, quote = some q → isQuote q = true) (hpad : isBlankText pad = true)
    (h : cutColon? depth quote escaped (pad ++ ':' :: v) = some (pad, v)) :
    depth = 0 ∧ quote = none := by
  induction pad generalizing depth quote escaped with
  | nil =>
    rcases cutColon?_cons escaped hq ':' with ⟨_, hd, hn, _⟩ | ⟨d, q, e, _, _, hcut⟩
    · exact ⟨hd, hn⟩
    · rw [List.nil_append, hcut v, Option.map_eq_some_iff] at h
      obtain ⟨_, _, he⟩ := h
      cases he
  | cons c pad ih =>
    obtain ⟨hc, hpad⟩ := Text.isBlankText_cons.1 hpad
    rcases cutColon?_cons escaped hq c with ⟨rfl, _⟩ | ⟨d, q, e, hq', hsame, hcut⟩
    · cases hc
    · rw [List.cons_append, hcut, Option.map_eq_some_iff] at h
      obtain ⟨⟨a, b⟩, hab, he⟩ := h
      cases he
      obtain ⟨rfl, rfl⟩ := hsame hc
      exact ih hq' hpad hab

/-- The colon is found when the blanks before it are gone, whatever follows. -/
theorem cutColon?_trimmed {depth : Nat} {quote : Option Char} {escaped : Bool}
    {k pad v : Text} (w : Text) (hq : ∀ q, quote = some q → isQuote q = true)
    (hpad : isBlankText pad = true)
    (h : cutColon? depth quote escaped (k ++ (pad ++ ':' :: v)) = some (k ++ pad, v)) :
    cutColon? depth quote escaped (k ++ ':' :: w) = some (k, w) := by
  induction k generalizing depth quote escaped with
  | nil =>
    obtain ⟨rfl, rfl⟩ := cutColon?_blanks hq hpad h
    rfl
  | cons c k ih =>
    rcases cutColon?_cons escaped hq c with ⟨_, _, _, hcut⟩ | ⟨d, q, e, hq', _, hcut⟩
    · rw [List.cons_append, hcut] at h
      cases h
    · rw [List.cons_append, hcut, Option.map_eq_some_iff] at h
      obtain ⟨⟨a, b⟩, hab, he⟩ := h
      cases he
      rw [List.cons_append, hcut, ih hq' hab]
      rfl

/-! ## Behind a key -/

namespace Spot

/-- The quote that is open. -/
def quote? : Spot → Option Char
  | .quoted q _ | .escaped q _ => some q
  | _ => none

def isEscaped : Spot → Bool
  | .escaped _ _ => true
  | _ => false

end Spot

/-- Look for the colon of an entry from a spot on. -/
def colonFrom? (sp : Spot) (t : Text) : Option (Text × Text) :=
  cutColon? sp.depth sp.quote? sp.isEscaped t

theorem colonFrom?_code {d : Nat} {c : Char} (t : Text) (h : Lexis.key.allowsCode d c = true) :
    colonFrom? (.code d) (c :: t) =
      (colonFrom? (Spot.ofCode d c) t).map fun (a, b) => (c :: a, b) := by
  by_cases hslash : c = '/'
  · subst hslash
    rfl
  have hcolon : ¬ (c = ':' ∧ d = 0) := by
    rintro ⟨rfl, rfl⟩
    cases h
  unfold colonFrom? Spot.ofCode
  simp only [Spot.quote?, Spot.depth, Spot.isEscaped]
  rw [cutColon?]
  simp only [hslash, hcolon, if_false]
  split_ifs <;> rfl

/-- The colon of an entry is not found in what its key holds. -/
theorem colonFrom?_cons {sp : Spot} {c : Char} (t : Text) (hc : Lexis.key.allows sp c = true)
    (hs : Lexis.key.Reaches sp) :
    colonFrom? sp (c :: t) = (colonFrom? (sp.next c) t).map fun (a, b) => (c :: a, b) := by
  cases sp with
  | code d => exact colonFrom?_code t hc
  | slash d =>
    simp only [Lexis.allows, Spot.next] at hc ⊢
    split_ifs at hc with hopen
    · cases hc
    · rw [not_or] at hopen
      rw [if_neg hopen.1, if_neg hopen.2]
      exact colonFrom?_code t hc
  | quoted q d =>
    unfold colonFrom? Spot.next
    simp only [Spot.quote?, Spot.depth, Spot.isEscaped]
    rw [cutColon?]
    simp only [Bool.false_eq_true, if_false]
    split_ifs <;> rfl
  | escaped q d => rfl
  | line d b => cases hs
  | block d b => cases hs

theorem colonFrom?_append {sp : Spot} {k : Text} (t : Text) (hk : Lexis.key.accepts sp k = true)
    (hs : Lexis.key.Reaches sp) :
    colonFrom? sp (k ++ t) = (colonFrom? (sp.after k) t).map fun (a, b) => (k ++ a, b) := by
  induction k generalizing sp with
  | nil => simp
  | cons c k ih =>
    obtain ⟨hc, hk⟩ := Lexis.accepts_cons.1 hk
    rw [List.cons_append, colonFrom?_cons _ hc hs, ih hk (hs.next hc), Spot.after_cons,
      Option.map_map]
    rfl

theorem cutColon?_key {k : Text} (t : Text) (hk : Lexis.key.closes k = true) :
    cutColon? 0 none false (k ++ t) =
      (cutColon? 0 none false t).map fun (a, b) => (k ++ a, b) := by
  obtain ⟨haccepts, hclosed⟩ := Lexis.closes_iff.1 hk
  have hcut := colonFrom?_append t haccepts trivial
  rcases Spot.isClosed_iff.1 hclosed with hs | hs
  · rwa [hs] at hcut
  · rwa [hs] at hcut

/-! ## Key and value -/

/-- How an entry comes about: its whole text is the key, or it is cut at the colon. -/
theorem RawEntry.toEntry?_cases {raw : RawEntry} {e : Entry} (h : raw.toEntry? = some e) :
    e.comment = raw.comment ∧
      (e.key = raw.text ∧ e.value = [] ∨
        ∃ k v, cutColon? 0 none false raw.text = some (k, v) ∧ raw.text = k ++ ':' :: v ∧
          e.key = Text.trim k ∧ e.value = Text.trimTerminator v ∧ e.key ≠ [] ∧ e.value ≠ []) := by
  unfold toEntry? at h
  cases hcut : cutColon? 0 none false raw.text with
  | none =>
    rw [hcut] at h
    simp only at h
    split_ifs at h
    cases h
    exact ⟨rfl, Or.inl ⟨rfl, rfl⟩⟩
  | some kv =>
    obtain ⟨k, v⟩ := kv
    rw [hcut] at h
    simp only at h
    split_ifs at h with hempty
    cases h
    rw [not_or, List.isEmpty_iff, List.isEmpty_iff] at hempty
    exact ⟨rfl, Or.inr ⟨k, v, rfl, cutColon?_eq_some (by simp) hcut, rfl, rfl, hempty.2, hempty.1⟩⟩

end Uplift.State
