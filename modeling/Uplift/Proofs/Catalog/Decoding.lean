-- What a JSON value says about a rule. A field stands under one of its names and
-- under no other, and an optional one may be null or left out. A value is read as
-- a rule exactly when it says so, and a rule that is written is read back.
import Uplift.Catalog.Load
import Uplift.Proofs.Json.Names

namespace Uplift

/-! ## Fields with several names -/

namespace Json

/-- The field has the value under one of its names, and none under another. -/
def Given (j : Json) (names : List String) (value : Json) : Prop :=
  ∃ n ∈ names, j.HasField n value ∧ ∀ m ∈ names, m ≠ n → ∀ w, ¬ j.HasField m w

/-- The field is under none of its names. -/
def NotGiven (j : Json) (names : List String) : Prop :=
  ∀ n ∈ names, ∀ w, ¬ j.HasField n w

end Json

namespace Rule

variable {j : Json} {names : List String}

theorem field?_eq_some_none : field? j names = some none ↔ j.NotGiven names := by
  have hnil : field? j names = some none ↔ names.filterMap j.get? = [] := by
    unfold field?
    split <;> simp_all
  rw [hnil, List.filterMap_eq_nil_iff]
  simp only [Json.get?_eq_none_iff]
  rfl

theorem field?_eq_some_some (h : j.Distinct) (hnames : names.Nodup) {value : Json} :
    field? j names = some (some value) ↔ j.Given names value := by
  have hone : field? j names = some (some value) ↔ names.filterMap j.get? = [value] := by
    unfold field?
    split <;> simp_all
  simp only [hone, List.filterMap_eq_cons_iff, List.filterMap_eq_nil_iff, Json.get?_eq_none_iff,
    h.get?_eq_some_iff]
  constructor
  · rintro ⟨before, n, after, rfl, hbefore, hn, hafter⟩
    refine ⟨n, by simp, hn, ?_⟩
    intro m hm hne
    rcases List.mem_append.1 hm with hm | hm
    · exact hbefore m hm
    · exact hafter m ((List.mem_cons.1 hm).resolve_left hne)
  · rintro ⟨n, hmem, hn, hother⟩
    obtain ⟨before, after, rfl⟩ := List.append_of_mem hmem
    obtain ⟨_, hafter, hdisjoint⟩ := List.nodup_append.1 hnames
    refine ⟨before, n, after, rfl, ?_, hn, ?_⟩
    · intro m hm
      exact hother m (List.mem_append_left _ hm) (hdisjoint m hm n List.mem_cons_self)
    · intro m hm
      refine hother m (List.mem_append_right _ (List.mem_cons_of_mem _ hm)) ?_
      rintro rfl
      exact (List.nodup_cons.1 hafter).1 hm

theorem required?_eq_some (h : j.Distinct) (hnames : names.Nodup) {value : Json} :
    required? j names = some value ↔ j.Given names value := by
  rw [← field?_eq_some_some h hnames]
  unfold required?
  cases field? j names <;> simp

/-- The text that a value gives, which is none if the value is null. -/
inductive DecodesText : Json → Option String → Prop
  | null : DecodesText .null none
  | text (s : String) : DecodesText (.str s) (some s)

theorem optionalText?_eq_some {text : Option String} :
    optionalText? j = some text ↔ DecodesText j text := by
  constructor
  · intro h
    cases j with
    | null =>
      cases h
      exact .null
    | str s =>
      cases h
      exact .text s
    | _ => cases h
  · rintro (_ | s) <;> rfl

/-- An optional field: left out, or a text or null. -/
def DecodesOptional (j : Json) (names : List String) (text : Option String) : Prop :=
  j.NotGiven names ∧ text = none ∨ ∃ v, j.Given names v ∧ DecodesText v text

theorem optional?_eq_some (h : j.Distinct) (hnames : names.Nodup) {text : Option String} :
    optional? j names = some text ↔ DecodesOptional j names text := by
  unfold optional? DecodesOptional
  simp only [← field?_eq_some_none, ← field?_eq_some_some h hnames, ← optionalText?_eq_some]
  rcases field? j names with _ | _ | v
  · simp
  · simp [optionalText?, eq_comm]
  · simp

end Rule

/-! ## Severities -/

namespace Severity

/-- A severity is its name, or an object with its name as the only field and no value. -/
inductive Decodes : Json → Severity → Prop
  | name (s : Severity) : Decodes (.str s.name) s
  | field (s : Severity) : Decodes (.obj [(s.name, .null)]) s

theorem ofName?_eq_some {n : String} {s : Severity} : ofName? n = some s ↔ s.name = n := by
  constructor
  · intro h
    simpa using List.find?_some h
  · rintro rfl
    cases s <;> rfl

theorem ofJson?_eq_some {j : Json} {s : Severity} : ofJson? j = some s ↔ Decodes j s := by
  unfold ofJson?
  constructor
  · intro h
    obtain ⟨n, hvariant, hname⟩ := Option.bind_eq_some_iff.1 h
    obtain rfl := ofName?_eq_some.1 hname
    unfold Json.variant? at hvariant
    split at hvariant
    · cases hvariant
      exact .name s
    · cases hvariant
      exact .field s
    · cases hvariant
  · rintro (_ | _) <;> exact ofName?_eq_some.2 rfl

end Severity

/-! ## Rules -/

namespace Rule

/-- The fields of an object that say what the rule is. -/
structure DecodesFields (j : Json) (rule : Rule) : Prop where
  name : j.Given ["name"] (.str rule.name)
  deprecatedIn : j.Given ["deprecatedInVersion", "deprecatedIn"] (.str rule.deprecatedIn)
  removedIn : DecodesOptional j ["removedInVersion", "removedIn"] rule.removedIn
  alternative : j.Given ["alternative"] (.str rule.alternative)
  severity : ∃ v, j.Given ["severity"] v ∧ Severity.Decodes v rule.severity
  pattern : DecodesOptional j ["pattern"] rule.pattern

/-- A rule is an object, or the list of its fields in order, of which the last may be missing. -/
inductive Decodes : Json → Rule → Prop
  | object {j : Json} {rule : Rule} : DecodesFields j rule → Decodes j rule
  | list {rule : Rule} {removed severity : Json} {more : List Json} :
      DecodesText removed rule.removedIn → Severity.Decodes severity rule.severity →
      (more = [] ∧ rule.pattern = none ∨ ∃ p, more = [p] ∧ DecodesText p rule.pattern) →
      Decodes (.arr (.str rule.name :: .str rule.deprecatedIn :: removed ::
        .str rule.alternative :: severity :: more)) rule

theorem str?_eq_some {j : Json} {s : String} : j.str? = some s ↔ j = .str s := by
  cases j <;> simp [Json.str?]

theorem ofJson?_obj {fields : List (String × Json)} (h : (Json.obj fields).Distinct)
    {rule : Rule} : ofJson? (.obj fields) = some rule ↔ DecodesFields (.obj fields) rule := by
  unfold ofJson?
  simp (disch := decide) only [Option.bind_eq_bind, Option.bind_eq_some_iff,
    required?_eq_some h, optional?_eq_some h, str?_eq_some, Severity.ofJson?_eq_some]
  constructor
  · rintro ⟨_, hname, _, rfl, _, hdeprecated, _, rfl, _, hremoved, _, halternative, _, rfl, _,
      hseverity, _, hdecodes, _, hpattern, he⟩
    cases he
    exact ⟨hname, hdeprecated, hremoved, halternative, ⟨_, hseverity, hdecodes⟩, hpattern⟩
  · rintro ⟨hname, hdeprecated, hremoved, halternative, ⟨_, hseverity, hdecodes⟩, hpattern⟩
    exact ⟨_, hname, _, rfl, _, hdeprecated, _, rfl, _, hremoved, _, halternative, _, rfl, _,
      hseverity, _, hdecodes, _, hpattern, rfl⟩

theorem ofJson?_arr {name deprecated removed alternative severity : Json} {more : List Json}
    {rule : Rule} :
    ofJson? (.arr (name :: deprecated :: removed :: alternative :: severity :: more)) = some rule ↔
      (more = [] ∧ rule.pattern = none ∨ ∃ p, more = [p] ∧ DecodesText p rule.pattern) ∧
      name = .str rule.name ∧ deprecated = .str rule.deprecatedIn ∧
      DecodesText removed rule.removedIn ∧ alternative = .str rule.alternative ∧
      Severity.Decodes severity rule.severity := by
  obtain ⟨n, d, r, a, s, p⟩ := rule
  unfold ofJson?
  rcases more with _ | ⟨last, _ | ⟨surplus, more⟩⟩
  · simp [Option.bind_eq_some_iff, str?_eq_some, optionalText?_eq_some, Severity.ofJson?_eq_some,
      @eq_comm _ none, and_comm, and_left_comm]
  · simp [Option.bind_eq_some_iff, str?_eq_some, optionalText?_eq_some, Severity.ofJson?_eq_some]
  · simp

theorem ofJson?_eq_some_iff {j : Json} (h : j.Distinct) {rule : Rule} :
    ofJson? j = some rule ↔ Decodes j rule := by
  constructor
  · intro hread
    unfold ofJson? at hread
    split at hread
    · exact .object ((ofJson?_obj h).1 hread)
    · obtain ⟨hpattern, rfl, rfl, hremoved, rfl, hseverity⟩ := ofJson?_arr.1 hread
      exact .list hremoved hseverity hpattern
    · cases hread
  · rintro (hfields | ⟨hremoved, hseverity, hpattern⟩)
    · obtain ⟨_, _, ⟨fields, rfl, _⟩, _⟩ := hfields.name
      exact (ofJson?_obj h).2 hfields
    · exact ofJson?_arr.2 ⟨hpattern, rfl, rfl, hremoved, rfl, hseverity⟩

/-- A rule that is written is read back. -/
theorem ofJson?_toJson (rule : Rule) : ofJson? rule.toJson = some rule := by
  obtain ⟨n, d, removed, a, severity, pattern⟩ := rule
  cases removed <;> cases pattern <;> cases severity <;> rfl

end Rule

end Uplift
