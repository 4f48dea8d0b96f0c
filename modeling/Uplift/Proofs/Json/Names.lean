-- The names of a JSON value's fields. The reader writes each field of an object
-- into the fields read before it, and so never gives one name twice. A field of
-- such an object is found exactly when it is there.
import Mathlib.Data.List.Nodup
import Uplift.Json.Reader

namespace Uplift.Json

/-- No object in the value has two fields of one name. -/
inductive Distinct : Json → Prop
  | null : Distinct .null
  | bool (b : Bool) : Distinct (.bool b)
  | num (n : Decimal) : Distinct (.num n)
  | str (s : String) : Distinct (.str s)
  | arr {items : List Json} : (∀ v ∈ items, Distinct v) → Distinct (.arr items)
  | obj {fields : List (String × Json)} : (fields.map Prod.fst).Nodup →
      (∀ f ∈ fields, Distinct f.2) → Distinct (.obj fields)

attribute [simp] Distinct.null Distinct.bool Distinct.num Distinct.str

@[simp]
theorem distinct_arr_iff {items : List Json} :
    Distinct (.arr items) ↔ ∀ v ∈ items, Distinct v := by
  constructor
  · rintro (_ | _ | _ | _ | h)
    exact h
  · exact Distinct.arr

@[simp]
theorem distinct_obj_iff {fields : List (String × Json)} :
    Distinct (.obj fields) ↔ (fields.map Prod.fst).Nodup ∧ ∀ f ∈ fields, Distinct f.2 := by
  constructor
  · rintro (_ | _ | _ | _ | _ | ⟨hnames, hvalues⟩)
    exact ⟨hnames, hvalues⟩
  · exact fun h => .obj h.1 h.2

/-! ## Looking a field up -/

section

variable {α : Type} {entries : List (String × α)} {name : String} {value : α}

theorem find?_fst_eq_none_iff :
    (entries.find? (·.1 == name)).map (·.2) = none ↔ ∀ value, (name, value) ∉ entries := by
  rw [Option.map_eq_none_iff, List.find?_eq_none]
  constructor
  · intro h value hmem
    exact h _ hmem (beq_self_eq_true name)
  · rintro h ⟨n, v⟩ hmem hn
    obtain rfl : n = name := eq_of_beq hn
    exact h v hmem

theorem mem_of_find?_fst (h : (entries.find? (·.1 == name)).map (·.2) = some value) :
    (name, value) ∈ entries := by
  obtain ⟨⟨n, v⟩, hfind, rfl⟩ := Option.map_eq_some_iff.1 h
  have hn := List.find?_some hfind
  obtain rfl : n = name := eq_of_beq hn
  exact List.mem_of_find?_eq_some hfind

theorem find?_fst_eq_some_iff (hnames : (entries.map Prod.fst).Nodup) :
    (entries.find? (·.1 == name)).map (·.2) = some value ↔ (name, value) ∈ entries := by
  constructor
  · exact mem_of_find?_fst
  · intro hmem
    cases hv : (entries.find? (·.1 == name)).map (·.2) with
    | none => exact absurd hmem (find?_fst_eq_none_iff.1 hv value)
    | some v =>
      have hsame := List.inj_on_of_nodup_map hnames (mem_of_find?_fst hv) hmem rfl
      rw [(Prod.mk.inj hsame).2]

end

/-- A field stands in the value, which is an object. -/
def HasField (j : Json) (name : String) (value : Json) : Prop :=
  ∃ fields, j = .obj fields ∧ (name, value) ∈ fields

theorem hasField_obj {fields : List (String × Json)} {name : String} {value : Json} :
    HasField (.obj fields) name value ↔ (name, value) ∈ fields := by
  simp [HasField]

theorem get?_eq_none_iff {j : Json} {name : String} :
    j.get? name = none ↔ ∀ value, ¬ j.HasField name value := by
  cases j with
  | obj fields =>
    simp only [hasField_obj]
    exact find?_fst_eq_none_iff
  | _ => simp [get?, HasField]

theorem Distinct.get?_eq_some_iff {j : Json} (h : j.Distinct) {name : String} {value : Json} :
    j.get? name = some value ↔ j.HasField name value := by
  cases h with
  | obj hnames _ =>
    rw [hasField_obj]
    exact find?_fst_eq_some_iff hnames
  | _ => simp [get?, HasField]

theorem Distinct.value {j : Json} (h : j.Distinct) {name : String} {value : Json}
    (hfield : j.HasField name value) : value.Distinct := by
  obtain ⟨fields, rfl, hmem⟩ := hfield
  exact (distinct_obj_iff.1 h).2 _ hmem

/-! ## Writing a field -/

theorem mem_putField {name : String} {value : Json} {fields : List (String × Json)}
    {f : String × Json} (h : f ∈ putField name value fields) :
    f = (name, value) ∨ f ∈ fields := by
  induction fields with
  | nil => exact Or.inl (List.mem_singleton.1 h)
  | cons g rest ih =>
    obtain ⟨n, v⟩ := g
    unfold putField at h
    split at h
    · rename_i hn
      subst hn
      rcases List.mem_cons.1 h with h | h
      · exact Or.inl h
      · exact Or.inr (List.mem_cons_of_mem _ h)
    · rcases List.mem_cons.1 h with h | h
      · exact Or.inr (h ▸ List.mem_cons_self)
      · rcases ih h with h | h
        · exact Or.inl h
        · exact Or.inr (List.mem_cons_of_mem _ h)

theorem nodup_putField {name : String} {value : Json} {fields : List (String × Json)}
    (h : (fields.map Prod.fst).Nodup) : ((putField name value fields).map Prod.fst).Nodup := by
  induction fields with
  | nil => simp [putField]
  | cons g rest ih =>
    obtain ⟨n, v⟩ := g
    obtain ⟨hn, hrest⟩ := List.nodup_cons.1 h
    unfold putField
    split
    · exact h
    · rename_i hne
      refine List.nodup_cons.2 ⟨?_, ih hrest⟩
      intro hmem
      obtain ⟨f, hf, hfst⟩ := List.mem_map.1 hmem
      rcases mem_putField hf with rfl | hf
      · exact hne hfst.symm
      · exact hn (List.mem_map.2 ⟨f, hf, hfst⟩)

theorem Distinct.putField {fields : List (String × Json)} (h : Distinct (.obj fields))
    (name : String) {value : Json} (hvalue : value.Distinct) :
    Distinct (.obj (putField name value fields)) := by
  obtain ⟨hnames, hvalues⟩ := distinct_obj_iff.1 h
  refine .obj (nodup_putField hnames) ?_
  intro f hf
  rcases mem_putField hf with rfl | hf
  · exact hvalue
  · exact hvalues f hf

/-! ## Reading a text -/

/-- With so many steps the reader gives only values whose names are distinct, if those that it
read before are. -/
structure ReadsDistinct (fuel : Nat) : Prop where
  value : ∀ {depth t j rest}, readValue fuel depth t = some (j, rest) → j.Distinct
  items : ∀ {depth done t items rest}, Distinct (.arr done) →
    readItems fuel depth done t = some (items, rest) → Distinct (.arr items)
  fields : ∀ {depth done t fields rest}, Distinct (.obj done) →
    readFields fuel depth done t = some (fields, rest) → Distinct (.obj fields)

namespace ReadsDistinct

variable {fuel depth : Nat} {t rest : Text}

theorem value_succ (h : ReadsDistinct fuel) {j : Json}
    (hread : readValue (fuel + 1) depth t = some (j, rest)) : j.Distinct := by
  unfold readValue at hread
  split at hread
  · cases hread
    exact .null
  · cases hread
    exact .bool true
  · cases hread
    exact .bool false
  · obtain ⟨⟨s, r⟩, _, he⟩ := Option.map_eq_some_iff.1 hread
    cases he
    exact .str _
  · split at hread
    · cases hread
    · split at hread
      · cases hread
        exact .arr (by simp)
      · obtain ⟨⟨items, r⟩, hitems, he⟩ := Option.map_eq_some_iff.1 hread
        cases he
        exact h.items (.arr (by simp)) hitems
  · split at hread
    · cases hread
    · split at hread
      · cases hread
        exact .obj (by simp) (by simp)
      · obtain ⟨⟨fields, r⟩, hfields, he⟩ := Option.map_eq_some_iff.1 hread
        cases he
        exact h.fields (.obj (by simp) (by simp)) hfields
  · obtain ⟨⟨n, r⟩, _, he⟩ := Option.map_eq_some_iff.1 hread
    cases he
    exact .num n

theorem items_succ (h : ReadsDistinct fuel) {done items : List Json} (hdone : Distinct (.arr done))
    (hread : readItems (fuel + 1) depth done t = some (items, rest)) : Distinct (.arr items) := by
  unfold readItems at hread
  split at hread
  · cases hread
  · rename_i v after hvalue
    have hmore : Distinct (.arr (v :: done)) :=
      .arr (List.forall_mem_cons.2 ⟨h.value hvalue, distinct_arr_iff.1 hdone⟩)
    split at hread
    · exact h.items hmore hread
    · cases hread
      refine .arr ?_
      intro w hw
      exact distinct_arr_iff.1 hmore w (List.mem_reverse.1 hw)
    · cases hread

theorem fields_succ (h : ReadsDistinct fuel) {done fields : List (String × Json)}
    (hdone : Distinct (.obj done))
    (hread : readFields (fuel + 1) depth done t = some (fields, rest)) :
    Distinct (.obj fields) := by
  unfold readFields at hread
  split at hread
  · split at hread
    · cases hread
    · rename_i name after _
      split at hread
      · split at hread
        · cases hread
        · rename_i v _ hvalue
          have hmore := hdone.putField (String.ofList name) (h.value hvalue)
          dsimp only at hread
          split at hread
          · exact h.fields hmore hread
          · cases hread
            exact hmore
          · cases hread
      · cases hread
  · cases hread

end ReadsDistinct

theorem readsDistinct (fuel : Nat) : ReadsDistinct fuel := by
  induction fuel with
  | zero =>
    refine ⟨?_, ?_, ?_⟩
    · intro depth t j rest hread
      simp [readValue] at hread
    · intro depth done t items rest _ hread
      simp [readItems] at hread
    · intro depth done t fields rest _ hread
      simp [readFields] at hread
  | succ fuel ih => exact ⟨ih.value_succ, ih.items_succ, ih.fields_succ⟩

/-- A text never gives a value with one name twice. -/
theorem distinct_of_parse? {t : Text} {j : Json} (h : parse? t = some j) : j.Distinct := by
  unfold parse? at h
  obtain ⟨⟨v, rest⟩, hread, h⟩ := Option.bind_eq_some_iff.1 h
  dsimp only at h
  split at h
  · cases h
    exact (readsDistinct _).value hread
  · cases h

end Uplift.Json
