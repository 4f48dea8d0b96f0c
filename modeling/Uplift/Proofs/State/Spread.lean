-- What an overlay means. It keeps the place where a key was first written, so
-- it means what both states mean one after the other only as long as no entry
-- changes places with a spread.
import Uplift.Proofs.State.Evaluation
import Uplift.Proofs.State.Keys

namespace Uplift.State

/-! ## The entries of an overlay -/

namespace Props

/-- The keys of two states in the order in which they are first written. -/
def firstPlaces (a b : Props) : List Text := a.keys ++ b.keys.filter fun k => !a.keys.contains k

/-- The keys of two states in the order in which they are last written. -/
def lastPlaces (a b : Props) : List Text := a.keys.filter (fun k => !b.keys.contains k) ++ b.keys

/-- Of the entries of two states, those that are not written again. -/
def lastEntries (a b : Props) : List Entry :=
  a.entries.filter (fun e => !b.keys.contains e.key) ++ b.entries

variable {a b : Props}

theorem keys_lastEntries : (lastEntries a b).map (·.key) = lastPlaces a b := by
  simp only [lastEntries, lastPlaces, keys, List.map_append, List.filter_map]
  rfl

theorem nodup_lastPlaces (ha : a.keys.Nodup) (hb : b.keys.Nodup) : (lastPlaces a b).Nodup := by
  rw [lastPlaces, List.nodup_append]
  refine ⟨ha.filter _, hb, ?_⟩
  rintro k hk _ hk' rfl
  simp [hk'] at hk

theorem mem_entries_iff {p : Props} (h : p.keys.Nodup) {e : Entry} :
    e ∈ p.entries ↔ p.find? e.key = some e := by
  constructor
  · intro he
    cases hfind : p.find? e.key with
    | none => exact absurd (List.find?_eq_none.1 hfind e he) (by simp)
    | some d =>
      have hkey : d.key = e.key := by simpa using List.find?_some hfind
      rw [List.inj_on_of_nodup_map h (List.mem_of_find?_eq_some hfind) he hkey]
  · intro hfind
    exact List.mem_of_find?_eq_some hfind

theorem find?_eq_none_iff {p : Props} {key : Text} : p.find? key = none ↔ key ∉ p.keys := by
  simp [find?, keys, List.find?_eq_none]

theorem mem_extend_iff (ha : a.keys.Nodup) (hb : b.keys.Nodup) {e : Entry} :
    e ∈ (a.extend b).entries ↔ e ∈ lastEntries a b := by
  rw [mem_entries_iff (nodup_keys_extend b ha), find?_extend a hb, Option.or_eq_some_iff,
    ← mem_entries_iff hb, ← mem_entries_iff ha, find?_eq_none_iff]
  simp [lastEntries, and_comm, or_comm]

/-! ## What an overlay means -/

/-- An overlay moves no entry past a spread: an entry is not replaced by one of the other kind,
and each spread stands behind the same keys in the order in which they are first written as in
the order in which they are last written. -/
structure SpreadsStay (a b : Props) : Prop where
  kinds : ∀ x ∈ a.entries, ∀ y ∈ b.entries, x.key = y.key → x.isSpread = y.isSpread
  places : ∀ s ∈ a.entries ++ b.entries, s.isSpread = true → ∀ key ∈ a.keys ++ b.keys,
    ([key, s.key].Sublist (firstPlaces a b) ↔ [key, s.key].Sublist (lastPlaces a b))

instance (a b : Props) : Decidable (SpreadsStay a b) :=
  decidable_of_iff
    ((∀ x ∈ a.entries, ∀ y ∈ b.entries, x.key = y.key → x.isSpread = y.isSpread) ∧
      ∀ s ∈ a.entries ++ b.entries, s.isSpread = true → ∀ key ∈ a.keys ++ b.keys,
        ([key, s.key].Sublist (firstPlaces a b) ↔ [key, s.key].Sublist (lastPlaces a b)))
    ⟨fun h => ⟨h.1, h.2⟩, fun h => ⟨h.kinds, h.places⟩⟩

/-- A replaced entry has no effect if the new one is of its kind. -/
theorem evaluate_lastEntries
    (hkinds : ∀ x ∈ a.entries, ∀ y ∈ b.entries, x.key = y.key → x.isSpread = y.isSpread)
    (spreads : Text → Properties) :
    evaluate spreads (lastEntries a b) = evaluate spreads (a.entries ++ b.entries) := by
  apply Finmap.ext_lookup
  intro name
  rw [lookup_evaluate, lookup_evaluate, lastEntries, lastValue_append, lastValue_append]
  cases hlast : lastValue (Entry.binding spreads name) b.entries with
  | some v => rfl
  | none =>
    rw [lastValue_filter]
    intro x hx hcovered
    obtain ⟨y, hy, hkey⟩ : ∃ y ∈ b.entries, y.key = x.key := by
      simpa [keys] using hcovered
    have hsome : (x.binding spreads name).isSome = (y.binding spreads name).isSome :=
      Entry.binding_isSome_congr hkey.symm (hkinds x hx y hy hkey.symm)
    rw [lastValue_eq_none.1 hlast y hy] at hsome
    simpa using hsome

/-- A name that is no key. -/
theorem exists_fresh (taken : List Text) : ∃ name, name ∉ taken := by
  refine ⟨' ' :: taken.flatten, fun h => ?_⟩
  have hlen := (List.sublist_flatten_of_mem h).length_le
  rw [List.length_cons] at hlen
  omega

/-- If an overlay means what both states mean in order, it replaces no entry by one of the
other kind. -/
theorem kinds_of_evaluate_eq (ha : a.keys.Nodup) (hb : b.keys.Nodup)
    (hsame : ∀ spreads, evaluate spreads (a.extend b).entries =
      evaluate spreads (a.entries ++ b.entries)) {x y : Entry} (hx : x ∈ a.entries)
    (hy : y ∈ b.entries) (hkey : x.key = y.key) : x.isSpread = y.isSpread := by
  have hvalue : ∀ spreads name, lastValue (Entry.binding spreads name) (a.extend b).entries =
      lastValue (Entry.binding spreads name) (a.entries ++ b.entries) := by
    intro spreads name
    rw [← lookup_evaluate, hsame, lookup_evaluate]
  have hy' : y ∈ (a.extend b).entries :=
    (mem_extend_iff ha hb).2 (List.mem_append_right _ hy)
  have honly : ∀ e ∈ (a.extend b).entries, e.key = y.key → e = y := fun e he hey =>
    List.inj_on_of_nodup_map (nodup_keys_extend b ha) he hy' hey
  cases hxs : x.isSpread with
  | true =>
    cases hys : y.isSpread with
    | true => rfl
    | false =>
      -- What the spread copies is lost with it.
      obtain ⟨name, hfresh⟩ := exists_fresh (a.extend b).keys
      have hnone := (hvalue (fun key => if key = y.key then Finmap.singleton name [] else ∅)
        name).symm.trans (lastValue_eq_none.2 fun e he => by
          cases hes : e.isSpread with
          | true =>
            have hne : e.key ≠ y.key := fun h => by simp [honly e he h, hys] at hes
            rw [Entry.binding_spread hes, if_neg hne, Finmap.lookup_empty]
          | false =>
            have hne : name ≠ e.key := fun h => hfresh (h ▸ List.mem_map_of_mem he)
            rw [Entry.binding_plain hes, if_neg hne])
      have hlost := lastValue_eq_none.1 hnone x (List.mem_append_left _ hx)
      rw [Entry.binding_spread hxs, if_pos hkey, Finmap.lookup_singleton_eq] at hlost
      cases hlost
  | false =>
    cases hys : y.isSpread with
    | false => rfl
    | true =>
      -- What the plain entry binds is lost with it.
      have hnone := (hvalue (fun _ => ∅) y.key).symm.trans
        (lastValue_eq_none.2 fun e he => by
          cases hes : e.isSpread with
          | true => rw [Entry.binding_spread hes, Finmap.lookup_empty]
          | false =>
            have hne : y.key ≠ e.key := fun h => by simp [honly e he h.symm, hys] at hes
            rw [Entry.binding_plain hes, if_neg hne])
      have hlost := lastValue_eq_none.1 hnone x (List.mem_append_left _ hx)
      rw [Entry.binding_plain hxs, if_pos hkey.symm] at hlost
      cases hlost

theorem mem_of_mem_lastEntries {e : Entry} (h : e ∈ lastEntries a b) :
    e ∈ a.entries ++ b.entries :=
  (List.filter_sublist.append_right b.entries).subset h

theorem key_mem {e : Entry} (h : e ∈ a.entries ++ b.entries) : e.key ∈ a.keys ++ b.keys := by
  rw [keys, keys, ← List.map_append]
  exact List.mem_map_of_mem h

theorem exists_lastEntry {key : Text} (h : key ∈ a.keys ++ b.keys) :
    ∃ e ∈ lastEntries a b, e.key = key := by
  have hplace : key ∈ lastPlaces a b := by
    by_cases hb : key ∈ b.keys
    · exact List.mem_append_right _ hb
    · have ha := (List.mem_append.1 h).resolve_right hb
      exact List.mem_append_left _ (List.mem_filter.2 ⟨ha, by simpa using hb⟩)
  rw [← keys_lastEntries] at hplace
  exact List.mem_map.1 hplace

/-- All entries under one key are of one kind. -/
theorem isSpread_congr (ha : a.keys.Nodup) (hb : b.keys.Nodup)
    (hkinds : ∀ x ∈ a.entries, ∀ y ∈ b.entries, x.key = y.key → x.isSpread = y.isSpread)
    {x y : Entry} (hx : x ∈ a.entries ++ b.entries) (hy : y ∈ a.entries ++ b.entries)
    (hkey : x.key = y.key) : x.isSpread = y.isSpread := by
  rcases List.mem_append.1 hx with hx | hx <;> rcases List.mem_append.1 hy with hy | hy
  · rw [List.inj_on_of_nodup_map ha hx hy hkey]
  · exact hkinds x hx y hy hkey
  · exact (hkinds y hy x hx hkey.symm).symm
  · rw [List.inj_on_of_nodup_map hb hx hy hkey]

/-- What stands before the spreads can be told from the keys alone. -/
theorem places_iff (ha : a.keys.Nodup) (hb : b.keys.Nodup)
    (hkinds : ∀ x ∈ a.entries, ∀ y ∈ b.entries, x.key = y.key → x.isSpread = y.isSpread) :
    (∀ t d : Entry, t.isSpread = true →
      ([d, t].Sublist (a.extend b).entries ↔ [d, t].Sublist (lastEntries a b))) ↔
    ∀ s ∈ a.entries ++ b.entries, s.isSpread = true → ∀ key ∈ a.keys ++ b.keys,
      ([key, s.key].Sublist (firstPlaces a b) ↔ [key, s.key].Sublist (lastPlaces a b)) := by
  have hmem : ∀ e, e ∈ (a.extend b).entries ↔ e ∈ lastEntries a b := fun e =>
    mem_extend_iff ha hb
  have hfirst : ∀ {x y}, x ∈ lastEntries a b → y ∈ lastEntries a b →
      ([x, y].Sublist (a.extend b).entries ↔ [x.key, y.key].Sublist (firstPlaces a b)) := by
    intro x y hx hy
    rw [firstPlaces, ← keys_extend a hb]
    exact sublist_iff_keys (nodup_keys_extend b ha) ((hmem x).2 hx) ((hmem y).2 hy)
  have hlast : ∀ {x y}, x ∈ lastEntries a b → y ∈ lastEntries a b →
      ([x, y].Sublist (lastEntries a b) ↔ [x.key, y.key].Sublist (lastPlaces a b)) := by
    intro x y hx hy
    rw [← keys_lastEntries]
    exact sublist_iff_keys (keys_lastEntries ▸ nodup_lastPlaces ha hb) hx hy
  constructor
  · intro h s hs hspread key hkey
    obtain ⟨t, ht, hts⟩ := exists_lastEntry (key_mem hs)
    obtain ⟨d, hd, rfl⟩ := exists_lastEntry hkey
    have hkind := isSpread_congr ha hb hkinds (mem_of_mem_lastEntries ht) hs hts
    rw [← hts, ← hfirst hd ht, ← hlast hd ht]
    exact h t d (hkind.trans hspread)
  · intro h t d hspread
    have hboth : ([d, t].Sublist (a.extend b).entries ∨ [d, t].Sublist (lastEntries a b)) →
        d ∈ lastEntries a b ∧ t ∈ lastEntries a b := by
      rintro (hsub | hsub)
      · exact ⟨(hmem d).1 (hsub.subset (by simp)), (hmem t).1 (hsub.subset (by simp))⟩
      · exact ⟨hsub.subset (by simp), hsub.subset (by simp)⟩
    have hiff : d ∈ lastEntries a b → t ∈ lastEntries a b →
        ([d, t].Sublist (a.extend b).entries ↔ [d, t].Sublist (lastEntries a b)) := by
      intro hd ht
      rw [hfirst hd ht, hlast hd ht]
      exact h t (mem_of_mem_lastEntries ht) hspread d.key (key_mem (mem_of_mem_lastEntries hd))
    constructor
    · intro hsub
      exact (hiff (hboth (.inl hsub)).1 (hboth (.inl hsub)).2).1 hsub
    · intro hsub
      exact (hiff (hboth (.inr hsub)).1 (hboth (.inr hsub)).2).2 hsub

/-- An overlay means what both states mean one after the other, whatever the spreads copy,
exactly when it moves no entry past a spread. -/
theorem an_overlay_keeps_its_meaning_exactly_when_spreads_stay (ha : Reachable a)
    (hb : Reachable b) :
    (∀ spreads, evaluate spreads (a.extend b).entries =
      evaluate spreads (a.entries ++ b.entries)) ↔ SpreadsStay a b := by
  have hna := ha.nodup_keys
  have hnb := hb.nodup_keys
  have harranged := evaluate_eq_iff (nodup_keys_extend b hna)
    (keys_lastEntries ▸ nodup_lastPlaces hna hnb) fun e => mem_extend_iff hna hnb
  constructor
  · intro hsame
    have hkinds : ∀ x ∈ a.entries, ∀ y ∈ b.entries, x.key = y.key → x.isSpread = y.isSpread :=
      fun _ hx _ hy => kinds_of_evaluate_eq hna hnb hsame hx hy
    refine ⟨hkinds, (places_iff hna hnb hkinds).1 (harranged.1 fun spreads => ?_)⟩
    rw [hsame, evaluate_lastEntries hkinds]
  · intro hstay spreads
    rw [← evaluate_lastEntries hstay.kinds]
    exact harranged.2 ((places_iff hna hnb hstay.kinds).2 hstay.places) spreads

/-- A key that is written again takes the place it had. Before a spread that is a change, and
behind one it is not. -/
theorem a_key_written_again_before_a_spread_changes_its_meaning :
    let again := parseLiteral "\x7b a: 2 \x7d".toList
    let before := parseLiteral "\x7b a: 1, ...d \x7d".toList
    let behind := parseLiteral "\x7b ...d, a: 1 \x7d".toList
    (Reachable again ∧ Reachable before ∧ Reachable behind) ∧
      (before.extend again).entries = [⟨['a'], ['2'], none⟩, ⟨"...d".toList, [], none⟩] ∧
      ¬ (∀ spreads, evaluate spreads (before.extend again).entries =
        evaluate spreads (before.entries ++ again.entries)) ∧
      ∀ spreads, evaluate spreads (behind.extend again).entries =
        evaluate spreads (behind.entries ++ again.entries) := by
  intro again before behind
  refine ⟨⟨.parsed _, .parsed _, .parsed _⟩, by decide +kernel, ?_, ?_⟩
  · rw [an_overlay_keeps_its_meaning_exactly_when_spreads_stay (.parsed _) (.parsed _)]
    decide +kernel
  · rw [an_overlay_keeps_its_meaning_exactly_when_spreads_stay (.parsed _) (.parsed _)]
    decide +kernel

end Props

end Uplift.State
