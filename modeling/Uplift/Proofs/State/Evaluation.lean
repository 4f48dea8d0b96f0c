-- What a literal means. It is evaluated from left to right: an entry binds its
-- key, a spread copies the properties of another object, and later ones win.
-- So plain entries may change places with each other, but not with a spread.
import Mathlib.Data.Finmap
import Mathlib.Data.List.Nodup
import Uplift.State.Props

namespace Uplift.State

/-! ## Evaluation -/

/-- The properties of an object. A value is the expression that was written for it. -/
abbrev Properties := Finmap fun _ : Text => Text

namespace Entry

/-- The entry copies all properties of another object. -/
def isSpread (e : Entry) : Bool :=
  e.value.isEmpty && (Text.dropLead? e.key ['.', '.', '.']).isSome

/-- The expression that the entry binds its key to; a shorthand binds a name to itself. -/
def bound (e : Entry) : Text := if e.value.isEmpty then e.key else e.value

/-- What an entry contributes, when `spreads` tells what each spread copies. -/
def properties (spreads : Text → Properties) (e : Entry) : Properties :=
  if e.isSpread then spreads e.key else Finmap.singleton e.key e.bound

end Entry

/-- Evaluate entries from left to right; later bindings win. -/
def evaluate (spreads : Text → Properties) (es : List Entry) : Properties :=
  es.foldl (fun found e => e.properties spreads ∪ found) ∅

/-- The value that an entry gives to a property. -/
def Entry.binding (spreads : Text → Properties) (name : Text) (e : Entry) : Option Text :=
  (e.properties spreads).lookup name

section Binding

variable {spreads : Text → Properties} {name : Text} {e : Entry}

theorem Entry.binding_spread (h : e.isSpread = true) :
    e.binding spreads name = (spreads e.key).lookup name := by
  simp [binding, properties, h]

theorem Entry.binding_plain (h : e.isSpread = false) :
    e.binding spreads name = if name = e.key then some e.bound else none := by
  rw [binding, properties, h, if_neg Bool.false_ne_true]
  split
  · rename_i hname
    rw [hname, Finmap.lookup_singleton_eq]
  · rename_i hname
    rw [Finmap.lookup_eq_none, Finmap.mem_singleton]
    exact hname

/-- Of two entries under one key, both spreads or both not, one gives a value to a property
exactly when the other does. -/
theorem Entry.binding_isSome_congr {d : Entry} (hkey : d.key = e.key)
    (hkind : d.isSpread = e.isSpread) :
    (d.binding spreads name).isSome = (e.binding spreads name).isSome := by
  cases hs : e.isSpread with
  | true => rw [binding_spread (hkind.trans hs), binding_spread hs, hkey]
  | false =>
    rw [binding_plain (hkind.trans hs), binding_plain hs, hkey]
    split <;> rfl

end Binding

/-- The value that the last entry with one gives. -/
def lastValue (f : Entry → Option Text) (es : List Entry) : Option Text := es.reverse.findSome? f

theorem lookup_evaluate (spreads : Text → Properties) (es : List Entry) (name : Text) :
    (evaluate spreads es).lookup name = lastValue (Entry.binding spreads name) es := by
  unfold evaluate lastValue
  induction es using List.reverseRecOn with
  | nil => rfl
  | append_singleton es e ih =>
    rw [List.foldl_append, List.reverse_append, List.reverse_singleton, List.singleton_append,
      List.foldl_cons, List.foldl_nil, List.findSome?_cons, ← ih, Entry.binding]
    cases hlook : (e.properties spreads).lookup name with
    | none => exact Finmap.lookup_union_right (Finmap.lookup_eq_none.1 hlook)
    | some v =>
      have hmem : name ∈ e.properties spreads := Finmap.mem_iff.2 ⟨v, hlook⟩
      rw [Finmap.lookup_union_left hmem, hlook]

theorem lastValue_append (f : Entry → Option Text) (es more : List Entry) :
    lastValue f (es ++ more) = (lastValue f more).or (lastValue f es) := by
  rw [lastValue, List.reverse_append, List.findSome?_append]
  rfl

/-- Entries without a value do not count. -/
theorem lastValue_filter {f : Entry → Option Text} {p : Entry → Bool} {es : List Entry}
    (h : ∀ e ∈ es, p e = false → f e = none) : lastValue f (es.filter p) = lastValue f es := by
  induction es using List.reverseRecOn with
  | nil => rfl
  | append_singleton es e ih =>
    have hes := ih fun d hd => h d (List.mem_append_left _ hd)
    rw [List.filter_append, lastValue_append, lastValue_append, hes]
    cases hp : p e with
    | true => simp [hp]
    | false => simp [hp, lastValue, h e (by simp) hp]

/-! ## The order of entries -/

section Order

variable {α : Type} {l : List α} {x y : α}

/-- In a list without repetitions, only one of two members stands before the other. -/
theorem not_sublist_swap (hn : l.Nodup) (h : [x, y].Sublist l) : ¬ [y, x].Sublist l := by
  intro h'
  induction l with
  | nil => cases h
  | cons z rest ih =>
    rw [List.nodup_cons] at hn
    cases h with
    | cons _ h =>
      cases h' with
      | cons _ h' => exact ih hn.2 h h'
      | cons_cons _ _ => exact hn.1 (h.subset (by simp))
    | cons_cons _ h =>
      cases h' with
      | cons _ h' => exact hn.1 (h'.subset (by simp))
      | cons_cons _ h' => exact hn.1 (h'.subset (by simp))

theorem sublist_or_swap (hx : x ∈ l) (hy : y ∈ l) (hne : x ≠ y) :
    [x, y].Sublist l ∨ [y, x].Sublist l := by
  induction l with
  | nil => cases hx
  | cons z rest ih =>
    rcases List.mem_cons.1 hx with rfl | hx'
    · have hy' := (List.mem_cons.1 hy).resolve_left hne.symm
      exact Or.inl (List.cons_sublist_cons.2 (List.singleton_sublist.2 hy'))
    · rcases List.mem_cons.1 hy with rfl | hy'
      · exact Or.inr (List.cons_sublist_cons.2 (List.singleton_sublist.2 hx'))
      · exact (ih hx' hy').imp (·.cons z) (·.cons z)

/-- The entries of a list with different keys stand as their keys do. -/
theorem sublist_iff_keys {es : List Entry} (hn : (es.map (·.key)).Nodup) {x y : Entry}
    (hx : x ∈ es) (hy : y ∈ es) :
    [x, y].Sublist es ↔ [x.key, y.key].Sublist (es.map (·.key)) := by
  constructor
  · intro h
    exact h.map (·.key)
  · intro h
    obtain ⟨pair, hsub, hpair⟩ := List.sublist_map_iff.1 h
    have htwo : pair.length = 2 := by simpa using (congrArg List.length hpair).symm
    obtain ⟨x', y', rfl⟩ := List.length_eq_two.1 htwo
    simp only [List.map_cons, List.map_nil, List.cons.injEq, and_true] at hpair
    have hmem := hsub.subset
    have hxx : x = x' := List.inj_on_of_nodup_map hn hx (hmem (by simp)) hpair.1
    have hyy : y = y' := List.inj_on_of_nodup_map hn hy (hmem (by simp)) hpair.2
    rw [hxx, hyy]
    exact hsub

end Order

/-- Entries that have the same values in the same order have the same last value. -/
theorem lastValue_congr {f : Entry → Option Text} {es es' : List Entry} (hn : es.Nodup)
    (hn' : es'.Nodup) (hmem : ∀ e, (f e).isSome = true → (e ∈ es ↔ e ∈ es'))
    (horder : ∀ x y, (f x).isSome = true → (f y).isSome = true → [x, y].Sublist es →
      [x, y].Sublist es') :
    lastValue f es = lastValue f es' := by
  have hnone : ∀ l : List Entry, ∀ e ∈ l, (f e).isSome = false → f e = none :=
    fun _ _ _ h => by simpa using h
  rw [← lastValue_filter (hnone es), ← lastValue_filter (hnone es')]
  congr 1
  have hperm : (es.filter fun e => (f e).isSome).Perm (es'.filter fun e => (f e).isSome) := by
    rw [List.perm_ext_iff_of_nodup (hn.filter _) (hn'.filter _)]
    intro e
    simp only [List.mem_filter]
    exact and_congr_left fun h => hmem e h
  have hfirst : (es.filter fun e => (f e).isSome).Pairwise fun x y => [x, y].Sublist es' := by
    apply List.pairwise_of_forall_sublist
    intro x y h
    have hin : ∀ z ∈ [x, y], (f z).isSome = true :=
      fun z hz => (List.mem_filter.1 (h.subset hz)).2
    exact horder x y (hin x (by simp)) (hin y (by simp)) (h.trans List.filter_sublist)
  have hsecond : (es'.filter fun e => (f e).isSome).Pairwise fun x y => [x, y].Sublist es' := by
    apply List.pairwise_of_forall_sublist
    intro x y h
    exact h.trans List.filter_sublist
  refine List.Perm.eq_of_pairwise ?_ hfirst hsecond hperm
  intro x y _ _ h h'
  exact absurd h' (not_sublist_swap hn' h)

theorem lastValue_eq_none {f : Entry → Option Text} {es : List Entry} :
    lastValue f es = none ↔ ∀ e ∈ es, f e = none := by
  simp [lastValue, List.findSome?_eq_none_iff]

/-! ## Two arrangements of the same entries -/

/-- A spread and another entry can disagree about a property that no other entry binds. -/
theorem exists_rivals {t d : Entry} (ht : t.isSpread = true) (hne : d.key ≠ t.key) :
    ∃ spreads name v w, v ≠ w ∧ t.binding spreads name = some v ∧
      d.binding spreads name = some w ∧
      ∀ e : Entry, e.key ≠ t.key → e.key ≠ d.key → e.binding spreads name = none := by
  cases hd : d.isSpread with
  | false =>
    -- The spread copies a property of the name that the other entry binds.
    refine ⟨fun key => if key = t.key then Finmap.singleton d.key ('x' :: d.bound) else ∅,
      d.key, 'x' :: d.bound, d.bound, List.cons_ne_self _ _, ?_, ?_, ?_⟩
    · rw [Entry.binding_spread ht, if_pos rfl, Finmap.lookup_singleton_eq]
    · rw [Entry.binding_plain hd, if_pos rfl]
    · intro e het hed
      cases he : e.isSpread with
      | true => rw [Entry.binding_spread he, if_neg het, Finmap.lookup_empty]
      | false => rw [Entry.binding_plain he, if_neg hed.symm]
  | true =>
    -- No plain entry has the key of a spread, so that key is free as a name.
    refine ⟨fun key => if key = t.key then Finmap.singleton t.key ['1']
        else if key = d.key then Finmap.singleton t.key ['2'] else ∅,
      t.key, ['1'], ['2'], by decide, ?_, ?_, ?_⟩
    · rw [Entry.binding_spread ht, if_pos rfl, Finmap.lookup_singleton_eq]
    · rw [Entry.binding_spread hd, if_neg hne, if_pos rfl, Finmap.lookup_singleton_eq]
    · intro e het hed
      cases he : e.isSpread with
      | true => rw [Entry.binding_spread he, if_neg het, if_neg hed, Finmap.lookup_empty]
      | false => rw [Entry.binding_plain he, if_neg het.symm]

/-- Where only two entries bind a property, the later one decides. -/
theorem lastValue_of_two {f : Entry → Option Text} {es : List Entry}
    (hn : (es.map (·.key)).Nodup) {x y : Entry} (h : [x, y].Sublist es) {v : Text}
    (hy : f y = some v) (hrest : ∀ e : Entry, e.key ≠ x.key → e.key ≠ y.key → f e = none) :
    lastValue f es = some v := by
  have hin : ∀ e ∈ [x, y], e ∈ es := fun e he => h.subset he
  have htwo : ∀ e ∈ es, (f e).isSome = true → e ∈ [x, y] := by
    intro e he hsome
    have hkey : e.key = x.key ∨ e.key = y.key := by
      by_contra hno
      rw [not_or] at hno
      simp [hrest e hno.1 hno.2] at hsome
    have hinj := fun z hz => List.inj_on_of_nodup_map hn he (hin z hz)
    rcases hkey with hkey | hkey
    · simp [hinj x (by simp) hkey]
    · simp [hinj y (by simp) hkey]
  have hnodup := List.Nodup.of_map _ hn
  have hpair : lastValue f es = lastValue f [x, y] := by
    apply lastValue_congr hnodup (hnodup.sublist h) (fun e he => ⟨fun hes => htwo e hes he, hin e⟩)
    intro u w hu hw huw
    have hu' := htwo u (huw.subset (by simp)) hu
    have hw' := htwo w (huw.subset (by simp)) hw
    simp only [List.mem_cons, List.not_mem_nil, or_false] at hu' hw'
    have hne : u ≠ w := List.pairwise_iff_forall_sublist.1 hnodup huw
    rcases hu' with rfl | rfl <;> rcases hw' with rfl | rfl
    · exact absurd rfl hne
    · exact List.Sublist.refl _
    · exact absurd huw (not_sublist_swap hnodup h)
    · exact absurd rfl hne
  rw [hpair]
  simp [lastValue, hy]

theorem key_ne_of_sublist {es : List Entry} (hn : (es.map (·.key)).Nodup) {x y : Entry}
    (h : [x, y].Sublist es) : x.key ≠ y.key := by
  have hkeys : [x.key, y.key].Sublist (es.map (·.key)) := h.map Entry.key
  exact List.pairwise_iff_forall_sublist.1 hn hkeys

/-- If two arrangements of the same entries mean the same, what stands before a spread in one
does so in the other. -/
theorem sublist_of_evaluate_eq {es es' : List Entry} (hn : (es.map (·.key)).Nodup)
    (hn' : (es'.map (·.key)).Nodup) (hmem : ∀ e, e ∈ es ↔ e ∈ es')
    (hsame : ∀ spreads, evaluate spreads es = evaluate spreads es') {t d : Entry}
    (ht : t.isSpread = true) (h : [d, t].Sublist es) : [d, t].Sublist es' := by
  have hne := key_ne_of_sublist hn h
  have hin : ∀ e ∈ [d, t], e ∈ es' := fun e he => (hmem e).1 (h.subset he)
  rcases sublist_or_swap (hin d (by simp)) (hin t (by simp)) (fun he => hne (he ▸ rfl)) with
    hsub | hswap
  · exact hsub
  · obtain ⟨spreads, name, v, w, hvw, htv, hdw, hrest⟩ := exists_rivals ht hne
    have hv : (evaluate spreads es).lookup name = some v := by
      rw [lookup_evaluate]
      exact lastValue_of_two hn h htv fun e hed het => hrest e het hed
    have hw : (evaluate spreads es').lookup name = some w := by
      rw [lookup_evaluate]
      exact lastValue_of_two hn' hswap hdw hrest
    rw [hsame spreads, hw] at hv
    exact absurd (Option.some.inj hv).symm hvw

/-- Two arrangements of the same entries mean the same, whatever the spreads copy, exactly when
each spread stands behind the same entries in both. -/
theorem evaluate_eq_iff {es es' : List Entry} (hn : (es.map (·.key)).Nodup)
    (hn' : (es'.map (·.key)).Nodup) (hmem : ∀ e, e ∈ es ↔ e ∈ es') :
    (∀ spreads, evaluate spreads es = evaluate spreads es') ↔
      ∀ t d, t.isSpread = true → ([d, t].Sublist es ↔ [d, t].Sublist es') := by
  constructor
  · intro hsame t d ht
    exact ⟨sublist_of_evaluate_eq hn hn' hmem hsame ht,
      sublist_of_evaluate_eq hn' hn (fun e => (hmem e).symm) (fun spreads => (hsame spreads).symm)
        ht⟩
  · intro hplaces spreads
    apply Finmap.ext_lookup
    intro name
    rw [lookup_evaluate, lookup_evaluate]
    have hnodup := List.Nodup.of_map _ hn
    apply lastValue_congr hnodup (List.Nodup.of_map _ hn') (fun e _ => hmem e)
    intro x y hx hy hxy
    have hin : ∀ e ∈ [x, y], e ∈ es' := fun e he => (hmem e).1 (hxy.subset he)
    cases hys : y.isSpread with
    | true => exact (hplaces y x hys).1 hxy
    | false =>
      cases hxs : x.isSpread with
      | true =>
        have hswap : ¬ [y, x].Sublist es' := fun h =>
          not_sublist_swap hnodup hxy ((hplaces x y hxs).2 h)
        have hne : x ≠ y := List.pairwise_iff_forall_sublist.1 hnodup hxy
        exact (sublist_or_swap (hin x (by simp)) (hin y (by simp)) hne).resolve_right hswap
      | false =>
        -- Two plain entries that bind one name have one key.
        rw [Entry.binding_plain hxs] at hx
        rw [Entry.binding_plain hys] at hy
        have hxn : name = x.key := by simpa using hx
        have hyn : name = y.key := by simpa using hy
        exact absurd (hxn.symm.trans hyn) (key_ne_of_sublist hn hxy)

end Uplift.State
