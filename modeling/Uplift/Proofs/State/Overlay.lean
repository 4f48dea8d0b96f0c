-- Overlaying state. Writing an entry changes what is found under its own key
-- only, so after any number of overlays a key has the entry that was written
-- for it last. State that is read off a method is such an overlay.
import Uplift.State.Extract

namespace Uplift.State

/-! ## Writing entries -/

theorem find?_putEntry (e : Entry) (es : List Entry) (key : Text) :
    (putEntry e es).find? (·.key == key) =
      if e.key = key then some e else es.find? (·.key == key) := by
  induction es with
  | nil =>
    by_cases hk : e.key = key
    · simp [putEntry, hk]
    · simp [putEntry, hk]
  | cons x rest ih =>
    unfold putEntry
    by_cases hx : x.key = e.key
    · by_cases hk : e.key = key
      · simp [hx, hk]
      · simp [hx, hk]
    · rw [if_neg hx]
      by_cases hxk : x.key = key
      · have hk : ¬ e.key = key := fun he => hx (hxk.trans he.symm)
        simp [hxk, hk]
      · simp [hxk, ih]

namespace Props

theorem find?_insertEntry (p : Props) (e : Entry) (key : Text) :
    (p.insertEntry e).find? key = if e.key = key then some e else p.find? key :=
  find?_putEntry e p.entries key

/-- After writing entries in order, a key has the last entry that was written for it. -/
theorem find?_foldl_insertEntry (es : List Entry) (p : Props) (key : Text) :
    (es.foldl insertEntry p).find? key =
      (es.reverse.find? (·.key == key)).or (p.find? key) := by
  induction es generalizing p with
  | nil => simp
  | cons e rest ih =>
    rw [List.foldl_cons, ih, find?_insertEntry, List.reverse_cons, List.find?_append]
    by_cases hk : e.key = key
    · cases rest.reverse.find? (·.key == key) <;> simp [hk]
    · cases rest.reverse.find? (·.key == key) <;> simp [hk]

/-- Overlays in a row write all their entries in order. -/
theorem foldl_extend (layers : List Props) (p : Props) :
    layers.foldl extend p = (layers.flatMap (·.entries)).foldl insertEntry p := by
  induction layers generalizing p with
  | nil => rfl
  | cons q rest ih =>
    rw [List.foldl_cons, ih, List.flatMap_cons, List.foldl_append]
    rfl

theorem find?_foldl_extend (layers : List Props) (key : Text) :
    (layers.foldl extend empty).find? key =
      (layers.flatMap (·.entries)).reverse.find? (·.key == key) := by
  rw [foldl_extend, find?_foldl_insertEntry]
  exact Option.or_none

end Props

/-! ## State that is read off a method -/

theorem extract?_eq_some {tree : Snapshot} {m : Method} {props : Props} :
    extract? tree m = some props ↔ ∃ body, m.body = some body ∧
      props = (updates tree body).foldl Props.extend Props.empty ∧ props.isEmpty = false := by
  unfold extract?
  simp only [Option.bind_eq_bind, Option.bind_eq_some_iff]
  constructor
  · rintro ⟨body, hb, h⟩
    split at h
    · cases h
    · rename_i hne
      cases h
      exact ⟨body, hb, rfl, by simpa using hne⟩
  · rintro ⟨body, hb, rfl, hne⟩
    exact ⟨body, hb, by simp [hne]⟩

/-- State is read off a body only if one of its updates is a literal. -/
theorem updates_ne_nil {tree : Snapshot} {body : Body}
    (h : ((updates tree body).foldl Props.extend Props.empty).isEmpty = false) :
    updates tree body ≠ [] := by
  intro hnil
  rw [hnil] at h
  cases h

end Uplift.State
