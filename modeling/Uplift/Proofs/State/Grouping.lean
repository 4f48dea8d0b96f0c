-- States laid over one another in groups. An overlay is settled by the order of
-- its keys and by what stands under each of them. Both of these can be worked
-- out two layers at a time, in any grouping, and the whole comes out the same.
import Uplift.Proofs.State.Keys

namespace Uplift.State

namespace Props

/-! ## States with the same keys -/

/-- An entry is found under its key, if each key stands once. -/
theorem find?_of_mem {es : List Entry} {e : Entry} (h : (es.map (·.key)).Nodup) (he : e ∈ es) :
    es.find? (·.key == e.key) = some e := by
  induction es with
  | nil => cases he
  | cons x rest ih =>
    rw [List.map_cons, List.nodup_cons] at h
    rcases List.mem_cons.1 he with rfl | hrest
    · simp
    · have hne : ¬ x.key = e.key := by
        intro hx
        exact h.1 (hx ▸ List.mem_map_of_mem hrest)
      rw [List.find?_cons_of_neg (by simpa using hne)]
      exact ih h.2 hrest

/-- A state is settled by its keys in order and by what stands under each of them. -/
theorem eq_of_keys_of_find? {p q : Props} (hp : p.keys.Nodup) (hkeys : p.keys = q.keys)
    (hfind : ∀ key, p.find? key = q.find? key) : p = q := by
  have hq : q.keys.Nodup := hkeys ▸ hp
  obtain ⟨es⟩ := p
  obtain ⟨fs⟩ := q
  congr 1
  have hlength : es.length = fs.length := by simpa [keys] using congrArg List.length hkeys
  refine List.ext_getElem hlength ?_
  intro n hn hn'
  have hkey : es[n].key = fs[n].key := by
    have hmap : (es.map (·.key))[n]? = (fs.map (·.key))[n]? := congrArg (·[n]?) hkeys
    simpa [hn, hn'] using hmap
  have hleft := find?_of_mem hp (List.getElem_mem hn)
  have hright := find?_of_mem hq (List.getElem_mem hn')
  have hsame : es.find? (·.key == es[n].key) = fs.find? (·.key == es[n].key) := hfind es[n].key
  rw [hleft, hkey, hright] at hsame
  exact Option.some.inj hsame

/-! ## Overlays -/

theorem extend_empty (p : Props) : p.extend empty = p := rfl

theorem empty_extend {p : Props} (h : p.keys.Nodup) : empty.extend p = p :=
  ofEntries_of_nodup h

/-- Two overlays in a row are one overlay of the second over the first. -/
theorem extend_assoc {a b c : Props} (ha : a.keys.Nodup) (hb : b.keys.Nodup) (hc : c.keys.Nodup) :
    (a.extend b).extend c = a.extend (b.extend c) := by
  have hbc : (b.extend c).keys.Nodup := nodup_keys_extend c hb
  refine eq_of_keys_of_find? (nodup_keys_extend c (nodup_keys_extend b ha)) ?_ ?_
  · rw [keys_extend _ hc, keys_extend _ hb, keys_extend _ hbc, keys_extend _ hc,
      List.filter_append, List.filter_filter, List.append_assoc]
    congr 2
    -- A key of `c` is new behind `a` and `b` exactly when neither of them has it.
    apply List.filter_congr
    intro k _
    by_cases hka : k ∈ a.keys
    · simp [hka]
    · simp [hka]
  · intro key
    rw [find?_extend _ hc, find?_extend _ hb, find?_extend _ hbc, find?_extend _ hc,
      Option.or_assoc]

/-- An overlay that is repeated changes nothing more. -/
theorem extend_extend {a b : Props} (ha : a.keys.Nodup) (hb : b.keys.Nodup) :
    (a.extend b).extend b = a.extend b := by
  refine eq_of_keys_of_find? (nodup_keys_extend b (nodup_keys_extend b ha)) ?_ ?_
  · have hnone : b.keys.filter (fun k => !(a.extend b).keys.contains k) = [] := by
      rw [List.filter_eq_nil_iff]
      intro k hk
      rw [keys_extend _ hb]
      by_cases hka : k ∈ a.keys
      · simp [hka]
      · simp [hka, hk]
    rw [keys_extend _ hb, hnone, List.append_nil]
  · intro key
    rw [find?_extend _ hb, find?_extend _ hb, ← Option.or_assoc, Option.or_self]

theorem nodup_keys_foldl_extend {p : Props} (layers : List Props) (hp : p.keys.Nodup) :
    (layers.foldl extend p).keys.Nodup := by
  rw [foldl_extend]
  exact nodup_keys_foldl_insertEntry _ hp

/-- Layers laid over a state one by one are laid over it as one. -/
theorem foldl_extend_eq_extend {p : Props} {layers : List Props} (hp : p.keys.Nodup)
    (hlayers : ∀ q ∈ layers, q.keys.Nodup) :
    layers.foldl extend p = p.extend (layers.foldl extend empty) := by
  induction layers generalizing p with
  | nil => rfl
  | cons q rest ih =>
    obtain ⟨hq, hrest⟩ := List.forall_mem_cons.1 hlayers
    have hnext : (p.extend q).keys.Nodup := nodup_keys_extend q hp
    have hbase : (rest.foldl extend empty).keys.Nodup :=
      nodup_keys_foldl_extend rest List.nodup_nil
    calc (q :: rest).foldl extend p
        = (p.extend q).extend (rest.foldl extend empty) := ih hnext hrest
      _ = p.extend (q.extend (rest.foldl extend empty)) := extend_assoc hp hq hbase
      _ = p.extend (rest.foldl extend q) := by rw [ih hq hrest]
      _ = p.extend ((q :: rest).foldl extend empty) := by rw [List.foldl_cons, empty_extend hq]

end Props

/-! ## Groups -/

/-- States that are laid over one another two by two. -/
inductive Grouping where
  | single (p : Props)
  /-- All of `top` is put together first, and so is all of `base`. -/
  | stacked (base top : Grouping)

namespace Grouping

/-- The states of a grouping, the lowest first. -/
def layers : Grouping → List Props
  | single p => [p]
  | stacked base top => base.layers ++ top.layers

/-- The state that a grouping comes to. -/
def overlay : Grouping → Props
  | single p => p
  | stacked base top => base.overlay.extend top.overlay

theorem layers_ne_nil (g : Grouping) : g.layers ≠ [] := by
  induction g with
  | single p => exact List.cons_ne_nil p []
  | stacked base top ihBase ihTop => exact List.append_ne_nil_of_left_ne_nil ihBase top.layers

/-- However states are grouped, they come to what they come to one by one. -/
theorem overlay_eq_foldl {g : Grouping} (h : ∀ p ∈ g.layers, p.keys.Nodup) :
    g.overlay = g.layers.foldl Props.extend Props.empty := by
  induction g with
  | single p => exact (Props.empty_extend (h p (List.mem_singleton_self p))).symm
  | stacked base top ihBase ihTop =>
    obtain ⟨hbase, htop⟩ := List.forall_mem_append.1 h
    have hnodup : base.overlay.keys.Nodup := by
      rw [ihBase hbase]
      exact Props.nodup_keys_foldl_extend _ List.nodup_nil
    unfold overlay layers
    rw [List.foldl_append, ← ihBase hbase, Props.foldl_extend_eq_extend hnodup htop, ihTop htop]

end Grouping

/-! ## State that is read off a method -/

/-- In the state of one update each key stands once. -/
theorem nodup_keys_of_mem_updates {tree : Snapshot} {body : Body} {p : Props}
    (h : p ∈ updates tree body) : p.keys.Nodup := by
  unfold updates at h
  obtain ⟨call, _, hcall⟩ := List.mem_filterMap.1 h
  unfold literalOf? at hcall
  simp only [Option.bind_eq_bind, Option.bind_eq_some_iff] at hcall
  obtain ⟨arg, _, harg⟩ := hcall
  split at harg
  · rw [← Option.some.inj harg]
    exact Props.nodup_keys_ofEntries _
  · cases harg

theorem nodup_keys_extract? {tree : Snapshot} {m : Method} {p : Props}
    (h : extract? tree m = some p) : p.keys.Nodup := by
  obtain ⟨body, _, rfl, _⟩ := extract?_eq_some.1 h
  exact Props.nodup_keys_foldl_extend _ List.nodup_nil

/-- However the updates of a method are grouped, the same state is read off it. -/
theorem extract?_of_grouping {tree : Snapshot} {m : Method} {body : Body} {g : Grouping}
    (hbody : m.body = some body) (hg : g.layers = updates tree body) :
    extract? tree m = if g.overlay.isEmpty then none else some g.overlay := by
  have hlayers : ∀ p ∈ g.layers, p.keys.Nodup := by
    intro p hp
    rw [hg] at hp
    exact nodup_keys_of_mem_updates hp
  rw [Grouping.overlay_eq_foldl hlayers, hg]
  unfold extract?
  rw [hbody]
  rfl

end Uplift.State
