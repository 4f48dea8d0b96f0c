-- The keys of a state. However a state comes about, each key stands in it once.
-- So merging new state with an initializer that is already there has one answer:
-- the new keys keep their places, the other keys of the initializer follow, and
-- a key that both have holds what the initializer says.
import Uplift.Proofs.State.Overlay
import Uplift.State.Literal

namespace Uplift.State

/-! ## Keys after a write -/

theorem map_key_putEntry (e : Entry) (es : List Entry) :
    (putEntry e es).map (·.key) =
      if e.key ∈ es.map (·.key) then es.map (·.key) else es.map (·.key) ++ [e.key] := by
  induction es with
  | nil => simp [putEntry]
  | cons x rest ih =>
    unfold putEntry
    by_cases hx : x.key = e.key
    · simp [hx]
    · have hne : ¬ e.key = x.key := fun h => hx h.symm
      rw [if_neg hx, List.map_cons, ih]
      by_cases hmem : e.key ∈ rest.map (·.key)
      · rw [if_pos hmem, List.map_cons, if_pos (List.mem_cons_of_mem _ hmem)]
      · rw [if_neg hmem, List.map_cons, if_neg (by simp only [List.mem_cons, hne, hmem, or_self,
          not_false_eq_true]), List.cons_append]

/-- An entry with a new key goes to the end. -/
theorem putEntry_of_new {e : Entry} {es : List Entry} (h : e.key ∉ es.map (·.key)) :
    putEntry e es = es ++ [e] := by
  induction es with
  | nil => rfl
  | cons x rest ih =>
    rw [List.map_cons, List.mem_cons, not_or] at h
    rw [putEntry, if_neg (Ne.symm h.1), ih h.2, List.cons_append]

theorem mem_of_mem_putEntry {e x : Entry} {es : List Entry} (h : x ∈ putEntry e es) :
    x = e ∨ x ∈ es := by
  induction es with
  | nil => exact Or.inl (List.mem_singleton.1 h)
  | cons y rest ih =>
    unfold putEntry at h
    split at h
    · exact (List.mem_cons.1 h).imp_right (List.mem_cons_of_mem y)
    · rcases List.mem_cons.1 h with rfl | h
      · exact Or.inr List.mem_cons_self
      · exact (ih h).imp_right (List.mem_cons_of_mem y)

namespace Props

theorem mem_of_mem_foldl_insertEntry {p : Props} {es : List Entry} {x : Entry}
    (h : x ∈ (es.foldl insertEntry p).entries) : x ∈ p.entries ∨ x ∈ es := by
  induction es generalizing p with
  | nil => exact Or.inl h
  | cons e rest ih =>
    rcases ih h with h | h
    · rcases mem_of_mem_putEntry h with rfl | h
      · exact Or.inr List.mem_cons_self
      · exact Or.inl h
    · exact Or.inr (List.mem_cons_of_mem e h)

theorem mem_of_mem_ofEntries {es : List Entry} {x : Entry} (h : x ∈ (ofEntries es).entries) :
    x ∈ es :=
  (mem_of_mem_foldl_insertEntry h).resolve_left List.not_mem_nil

theorem keys_insertEntry (p : Props) (e : Entry) :
    (p.insertEntry e).keys = if e.key ∈ p.keys then p.keys else p.keys ++ [e.key] :=
  map_key_putEntry e p.entries

theorem nodup_keys_insertEntry {p : Props} (e : Entry) (h : p.keys.Nodup) :
    (p.insertEntry e).keys.Nodup := by
  rw [keys_insertEntry]
  split
  · exact h
  · rename_i hmem
    rw [List.nodup_append]
    refine ⟨h, by simp, ?_⟩
    intro a ha b hb hab
    rw [List.mem_singleton.1 hb] at hab
    exact hmem (hab ▸ ha)

theorem nodup_keys_foldl_insertEntry {p : Props} (es : List Entry) (h : p.keys.Nodup) :
    (es.foldl insertEntry p).keys.Nodup := by
  induction es generalizing p with
  | nil => exact h
  | cons e rest ih => exact ih (nodup_keys_insertEntry e h)

theorem nodup_keys_extend {p : Props} (other : Props) (h : p.keys.Nodup) :
    (p.extend other).keys.Nodup :=
  nodup_keys_foldl_insertEntry other.entries h

theorem nodup_keys_ofEntries (es : List Entry) : (ofEntries es).keys.Nodup :=
  nodup_keys_foldl_insertEntry es List.nodup_nil

/-- Entries with keys of their own are kept as they are. -/
theorem foldl_insertEntry_of_nodup (p : Props) {es : List Entry}
    (h : (p.keys ++ es.map (·.key)).Nodup) : es.foldl insertEntry p = ⟨p.entries ++ es⟩ := by
  induction es generalizing p with
  | nil => simp
  | cons e rest ih =>
    have hnew : e.key ∉ p.entries.map (·.key) := fun hmem =>
      (List.nodup_append.1 h).2.2 _ hmem _ (by simp) rfl
    have hput : p.insertEntry e = ⟨p.entries ++ [e]⟩ := by rw [insertEntry, putEntry_of_new hnew]
    rw [List.foldl_cons, hput, ih, List.append_assoc, List.singleton_append]
    simpa [keys] using h

theorem ofEntries_of_nodup {es : List Entry} (h : (es.map (·.key)).Nodup) :
    ofEntries es = ⟨es⟩ :=
  foldl_insertEntry_of_nodup empty h

/-! ## Keys after an overlay -/

/-- Of the entries that are laid over a state, those with a key of its own go to that key's
place, and the others follow in order. -/
theorem keys_foldl_insertEntry (p : Props) {es : List Entry} (h : (es.map (·.key)).Nodup) :
    (es.foldl insertEntry p).keys =
      p.keys ++ (es.map (·.key)).filter fun k => !p.keys.contains k := by
  induction es generalizing p with
  | nil => simp
  | cons e rest ih =>
    rw [List.map_cons, List.nodup_cons] at h
    obtain ⟨hnew, hrest⟩ := h
    rw [List.foldl_cons, ih _ hrest, keys_insertEntry, List.map_cons, List.filter_cons]
    by_cases hmem : e.key ∈ p.keys
    · rw [if_pos hmem, if_neg (by simp [hmem])]
    · rw [if_neg hmem, if_pos (by simp [hmem]), List.append_assoc, List.singleton_append]
      congr 2
      apply List.filter_congr
      intro k hk
      have hne : ¬ k = e.key := fun he => hnew (he ▸ hk)
      simp [hne]

theorem keys_extend (p : Props) {other : Props} (h : other.keys.Nodup) :
    (p.extend other).keys = p.keys ++ other.keys.filter fun k => !p.keys.contains k :=
  keys_foldl_insertEntry p h

theorem find?_foldl_insertEntry_of_nodup (p : Props) {es : List Entry}
    (h : (es.map (·.key)).Nodup) (key : Text) :
    (es.foldl insertEntry p).find? key = (es.find? (·.key == key)).or (p.find? key) := by
  induction es generalizing p with
  | nil => simp
  | cons e rest ih =>
    rw [List.map_cons, List.nodup_cons] at h
    obtain ⟨hnew, hrest⟩ := h
    rw [List.foldl_cons, ih _ hrest, find?_insertEntry, List.find?_cons]
    by_cases hk : e.key = key
    · have hnone : rest.find? (·.key == key) = none := by
        rw [List.find?_eq_none]
        intro x hx he
        exact hnew (List.mem_map.2 ⟨x, hx, by rw [hk]; simpa using he⟩)
      simp [hk, hnone]
    · have hb : (e.key == key) = false := by simpa using hk
      simp [hk, hb]

theorem find?_extend (p : Props) {other : Props} (h : other.keys.Nodup) (key : Text) :
    (p.extend other).find? key = (other.find? key).or (p.find? key) :=
  find?_foldl_insertEntry_of_nodup p h key

/-! ## States that come about -/

/-- The states that come about: by the operations on states from the empty one, and by
reading a literal. -/
inductive Reachable : Props → Prop
  | empty : Reachable empty
  | insert {p : Props} (key value : Text) : Reachable p → Reachable (p.insert key value)
  | insertEntry {p : Props} (e : Entry) : Reachable p → Reachable (p.insertEntry e)
  | extend {p other : Props} : Reachable p → Reachable other → Reachable (p.extend other)
  | merged {fresh existing : Props} : Reachable fresh → Reachable existing →
      Reachable (fresh.mergedWithExisting existing)
  | parsed (text : Text) : Reachable (parseLiteral text)

theorem Reachable.nodup_keys {p : Props} (h : Reachable p) : p.keys.Nodup := by
  induction h with
  | empty => exact List.nodup_nil
  | insert key value _ ih => exact nodup_keys_insertEntry _ ih
  | insertEntry e _ ih => exact nodup_keys_insertEntry e ih
  | extend _ _ ih _ => exact nodup_keys_extend _ ih
  | merged _ _ ih _ => exact nodup_keys_extend _ ih
  | parsed text => exact nodup_keys_ofEntries _

/-! ## The law -/

/-- Each key stands once in every state that comes about. New state merged with an initializer
has the new keys in their order and then the other keys of the initializer in theirs, and each
key has the entry of the initializer, value and comment, unless only the new state has one. -/
theorem an_initializer_wins_and_each_key_stands_once :
    (∀ p, Reachable p → p.keys.Nodup) ∧
      ∀ fresh existing, Reachable fresh → Reachable existing →
        (fresh.mergedWithExisting existing).keys =
          fresh.keys ++ existing.keys.filter (fun k => !fresh.keys.contains k) ∧
        ∀ key, (fresh.mergedWithExisting existing).find? key =
          (existing.find? key).or (fresh.find? key) := by
  refine ⟨fun p hp => hp.nodup_keys, ?_⟩
  intro fresh existing _ hexisting
  have hkeys := hexisting.nodup_keys
  exact ⟨keys_extend fresh hkeys, find?_extend fresh hkeys⟩

/-- A literal that writes one key twice, and an initializer with two of its keys. -/
theorem sample_initializer_wins :
    let fresh := parseLiteral "\x7b a: 2, b: 3, a: 4 \x7d".toList
    let existing := parseLiteral "\x7b c: 5, b: 6 /* kept */ \x7d".toList
    Reachable fresh ∧ Reachable existing ∧ fresh.keys.Nodup ∧
      (fresh.mergedWithExisting existing).keys = [['a'], ['b'], ['c']] ∧
      (fresh.mergedWithExisting existing).find? ['b'] =
        some ⟨['b'], ['6'], some "/* kept */".toList⟩ := by
  intro fresh existing
  obtain ⟨hone, hmerge⟩ := an_initializer_wins_and_each_key_stands_once
  obtain ⟨hkeys, hfind⟩ := hmerge fresh existing (.parsed _) (.parsed _)
  refine ⟨.parsed _, .parsed _, hone _ (.parsed _), ?_, ?_⟩
  · rw [hkeys]
    decide +kernel
  · rw [hfind]
    decide +kernel

end Props

end Uplift.State
