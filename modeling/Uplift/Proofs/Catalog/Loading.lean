-- What a document says about a catalog. Loading tells four documents apart: one
-- without the section, one whose section is no table of rules, one with a key
-- that is no category's, and one that is a catalog. Of the unknown keys the first
-- in the order of bytes is named. A catalog holds the rules of each key as they
-- are listed, and nothing else.
import Mathlib.Data.List.Forall2
import Mathlib.Data.String.Basic
import Uplift.Proofs.Catalog.Decoding
import Uplift.Proofs.Text.Bytes

namespace Uplift

/-! ## Keys of categories -/

namespace Category

theorem mem_all (c : Category) : c ∈ all := by
  cases c <;> decide

theorem catalogKey_injective : Function.Injective catalogKey := by
  intro a b h
  have hkeys : (all.map catalogKey).Nodup := by decide
  exact List.inj_on_of_nodup_map hkeys (mem_all a) (mem_all b) h

theorem ofCatalogKey?_eq_none {k : String} :
    ofCatalogKey? k = none ↔ ∀ c : Category, c.catalogKey ≠ k := by
  unfold ofCatalogKey?
  rw [List.find?_eq_none]
  constructor
  · intro h c hc
    exact h c (mem_all c) (beq_iff_eq.2 hc)
  · intro h c _ hc
    exact h c (beq_iff_eq.1 hc)

end Category

namespace Catalog

/-! ## Tables of rules -/

/-- A list of rules, each of which can be read. -/
def DecodesRules (j : Json) (rules : List Rule) : Prop :=
  ∃ items, j = .arr items ∧ List.Forall₂ Rule.Decodes items rules

/-- An object whose every value is a list of rules. -/
def DecodesSections (j : Json) (sections : List (String × List Rule)) : Prop :=
  ∃ fields, j = .obj fields ∧
    List.Forall₂ (fun f s => f.1 = s.1 ∧ DecodesRules f.2 s.2) fields sections

theorem mapM_eq_some_iff {α β : Type} {f : α → Option β} {R : α → β → Prop} {xs : List α}
    {ys : List β} (h : ∀ x ∈ xs, ∀ y, f x = some y ↔ R x y) :
    xs.mapM f = some ys ↔ List.Forall₂ R xs ys := by
  induction xs generalizing ys with
  | nil => simp [eq_comm]
  | cons x xs ih =>
    have ih := fun ys => @ih ys fun x hx => h x (List.mem_cons_of_mem _ hx)
    simp only [List.mapM_cons, Option.bind_eq_bind, Option.bind_eq_some_iff, Option.pure_def,
      Option.some.injEq, List.forall₂_cons_left_iff, h x List.mem_cons_self, ih]
    simp only [eq_comm, exists_and_left]

theorem section?_eq_some {j : Json} {rules : List Rule}
    (h : j.Distinct) : section? j = some rules ↔ DecodesRules j rules := by
  unfold section? DecodesRules
  cases h with
  | arr hitems =>
    simp only [Json.arr?, Option.bind_eq_bind, Option.bind_some, Json.arr.injEq,
      exists_eq_left']
    exact mapM_eq_some_iff fun v hv _ => Rule.ofJson?_eq_some_iff (hitems v hv)
  | _ => simp [Json.arr?]

theorem sections_eq_some {fields : List (String × Json)} (h : (Json.obj fields).Distinct)
    {sections : List (String × List Rule)} :
    (fields.mapM fun (k, v) => (section? v).map (k, ·)) = some sections ↔
      DecodesSections (.obj fields) sections := by
  unfold DecodesSections
  simp only [Json.obj.injEq, exists_eq_left']
  apply mapM_eq_some_iff
  rintro ⟨k, v⟩ hf ⟨l, rules⟩
  have hv := (Json.distinct_obj_iff.1 h).2 _ hf
  simp only [Option.map_eq_some_iff, Prod.mk.injEq, section?_eq_some hv]
  constructor
  · rintro ⟨_, hrules, rfl, rfl⟩
    exact ⟨rfl, hrules⟩
  · rintro ⟨rfl, hrules⟩
    exact ⟨_, hrules, rfl, rfl⟩

theorem DecodesSections.nodup {j : Json} {sections : List (String × List Rule)}
    (h : DecodesSections j sections) (hj : j.Distinct) : (sections.map Prod.fst).Nodup := by
  obtain ⟨fields, rfl, hfields⟩ := h
  have hsame : fields.map Prod.fst = sections.map Prod.fst := by
    rw [← List.forall₂_eq_eq_eq, List.forall₂_map_left_iff, List.forall₂_map_right_iff]
    exact hfields.imp fun _ _ hf => hf.1
  rw [← hsame]
  exact (Json.distinct_obj_iff.1 hj).1

/-! ## Unknown keys -/

/-- The key is no category's. -/
def UnknownKey (k : String) : Prop := ∀ c : Category, c.catalogKey ≠ k

/-- Of the keys of the sections that are no category's, the key is the first in the order of
bytes. -/
structure LeastUnknown (sections : List (String × List Rule)) (k : String) : Prop where
  mem : k ∈ sections.map Prod.fst
  unknown : UnknownKey k
  least : ∀ l ∈ sections.map Prod.fst, UnknownKey l → l ≠ k →
    Text.bytes k.toList < Text.bytes l.toList

theorem LeastUnknown.unique {sections : List (String × List Rule)} {k l : String}
    (hk : LeastUnknown sections k) (hl : LeastUnknown sections l) : k = l := by
  by_contra hne
  exact List.lt_asymm (hk.least l hl.mem hl.unknown (Ne.symm hne))
    (hl.least k hk.mem hk.unknown hne)

theorem least?_eq_none {keys : List String} : least? keys = none ↔ keys = [] := by
  cases keys with
  | nil => simp [least?]
  | cons k rest =>
    unfold least?
    split
    · simp
    · split <;> simp

theorem least?_spec {keys : List String} {k : String} (h : least? keys = some k) :
    k ∈ keys ∧ ∀ l ∈ keys, l ≠ k → k < l := by
  induction keys generalizing k with
  | nil => cases h
  | cons first rest ih =>
    unfold least? at h
    split at h
    · rename_i hnone
      cases h
      simp [least?_eq_none.1 hnone]
    · rename_i l hl
      obtain ⟨hmem, hleast⟩ := ih hl
      split at h
      · rename_i hlt
        cases h
        refine ⟨List.mem_cons_of_mem _ hmem, ?_⟩
        rintro m hm hne
        rcases List.mem_cons.1 hm with rfl | hm
        · exact hlt
        · exact hleast m hm hne
      · rename_i hge
        cases h
        refine ⟨List.mem_cons_self, ?_⟩
        rintro m hm hne
        rcases List.mem_cons.1 hm with rfl | hm
        · exact absurd rfl hne
        · have hle : first ≤ m := by
            by_cases hml : m = l
            · exact hml ▸ not_lt.1 hge
            · exact le_trans (not_lt.1 hge) (le_of_lt (hleast m hm hml))
          exact lt_of_le_of_ne hle (Ne.symm hne)

/-- The keys of the sections that are no category's, in order. -/
def unknownKeys (sections : List (String × List Rule)) : List String :=
  (sections.map (·.1)).filter fun k => (Category.ofCatalogKey? k).isNone

theorem mem_unknownKeys {sections : List (String × List Rule)} {k : String} :
    k ∈ unknownKeys sections ↔ k ∈ sections.map Prod.fst ∧ UnknownKey k := by
  unfold unknownKeys
  rw [List.mem_filter, Option.isNone_iff_eq_none, Category.ofCatalogKey?_eq_none]
  rfl

theorem leastUnknown_of_least? {sections : List (String × List Rule)} {k : String}
    (h : least? (unknownKeys sections) = some k) : LeastUnknown sections k := by
  obtain ⟨hmem, hleast⟩ := least?_spec h
  obtain ⟨hkey, hunknown⟩ := mem_unknownKeys.1 hmem
  refine ⟨hkey, hunknown, ?_⟩
  intro l hl hunknown hne
  have hlt : k < l := hleast l (mem_unknownKeys.2 ⟨hl, hunknown⟩) hne
  exact Text.bytes_lt_bytes (String.lt_iff_toList_lt.1 hlt)

theorem known_of_least?_eq_none {sections : List (String × List Rule)}
    (h : least? (unknownKeys sections) = none) :
    ∀ k ∈ sections.map Prod.fst, ¬ UnknownKey k := by
  intro k hk hunknown
  have hmem := mem_unknownKeys.2 ⟨hk, hunknown⟩
  rw [least?_eq_none.1 h] at hmem
  cases hmem

/-! ## Catalogs of sections -/

/-- The catalog that holds the sections. -/
def ofSections (sections : List (String × List Rule)) : Catalog :=
  ⟨fun c => ((sections.find? (·.1 == c.catalogKey)).map (·.2)).getD []⟩

/-- What is in a catalog: the rules of each section, in order, and no others. -/
structure Holds (catalog : Catalog) (sections : List (String × List Rule)) : Prop where
  listed : ∀ c rules, (c.catalogKey, rules) ∈ sections → catalog.rules c = rules
  absent : ∀ c, c.catalogKey ∉ sections.map Prod.fst → catalog.rules c = []
  size_eq : catalog.size = (sections.flatMap Prod.snd).length
  find_iff : ∀ c name rule, catalog.find? c name = some rule ↔
    ∃ before after, catalog.rules c = before ++ rule :: after ∧ rule.name = name ∧
      ∀ r ∈ before, r.name ≠ name
  primary_iff : ∀ c rule, catalog.primary? c = some rule ↔
    ∃ rest, catalog.rules c = rule :: rest

theorem rules_ofSections_of_notMem {sections : List (String × List Rule)} {c : Category}
    (h : c.catalogKey ∉ sections.map Prod.fst) : (ofSections sections).rules c = [] := by
  have hnone : (sections.find? (·.1 == c.catalogKey)).map (·.2) = none := by
    rw [Json.find?_fst_eq_none_iff]
    intro rules hmem
    exact h (List.mem_map_of_mem hmem)
  unfold ofSections
  dsimp only
  rw [hnone]
  rfl

theorem rules_ofSections_of_mem {sections : List (String × List Rule)} {c : Category}
    {rules : List Rule} (hnames : (sections.map Prod.fst).Nodup)
    (h : (c.catalogKey, rules) ∈ sections) : (ofSections sections).rules c = rules := by
  have hsome := (Json.find?_fst_eq_some_iff hnames).2 h
  unfold ofSections
  dsimp only
  rw [hsome]
  rfl

theorem size_eq_add {catalog larger : Catalog} {c : Category} {n : Nat}
    (h : ∀ d, (larger.rules d).length = (if d = c then n else 0) + (catalog.rules d).length) :
    larger.size = n + catalog.size := by
  unfold size
  simp only [Category.all, List.foldl_cons, List.foldl_nil, h]
  cases c <;> simp only [reduceCtorEq, if_true, if_false] <;> omega

theorem size_ofSections {sections : List (String × List Rule)}
    (hnames : (sections.map Prod.fst).Nodup)
    (hknown : ∀ k ∈ sections.map Prod.fst, ¬ UnknownKey k) :
    (ofSections sections).size = (sections.flatMap Prod.snd).length := by
  induction sections with
  | nil => rfl
  | cons s rest ih =>
    obtain ⟨k, rules⟩ := s
    obtain ⟨hk, hrest⟩ := List.nodup_cons.1 hnames
    obtain ⟨c, rfl⟩ : ∃ c : Category, c.catalogKey = k := by
      simpa [UnknownKey] using hknown k List.mem_cons_self
    have hstep : ∀ d, ((ofSections ((c.catalogKey, rules) :: rest)).rules d).length =
        (if d = c then rules.length else 0) + ((ofSections rest).rules d).length := by
      intro d
      by_cases hd : d = c
      · subst hd
        rw [rules_ofSections_of_mem hnames List.mem_cons_self, rules_ofSections_of_notMem hk]
        simp
      · have hne : c.catalogKey ≠ d.catalogKey :=
          fun he => hd (Category.catalogKey_injective he).symm
        simp [ofSections, hd, hne]
    rw [size_eq_add hstep, ih hrest fun k hk => hknown k (List.mem_cons_of_mem _ hk),
      List.flatMap_cons, List.length_append]

theorem holds_ofSections {sections : List (String × List Rule)}
    (hnames : (sections.map Prod.fst).Nodup)
    (hknown : ∀ k ∈ sections.map Prod.fst, ¬ UnknownKey k) :
    Holds (ofSections sections) sections := by
  refine ⟨?_, ?_, size_ofSections hnames hknown, ?_, ?_⟩
  · intro c rules h
    exact rules_ofSections_of_mem hnames h
  · intro c h
    exact rules_ofSections_of_notMem h
  · intro c name rule
    unfold find?
    simp only [List.find?_eq_some_iff_append, beq_iff_eq, Bool.not_eq_eq_eq_not, Bool.not_true,
      beq_eq_false_iff_ne]
    constructor
    · rintro ⟨hname, before, after, hrules, hbefore⟩
      exact ⟨before, after, hrules, hname, hbefore⟩
    · rintro ⟨before, after, hrules, hname, hbefore⟩
      exact ⟨hname, before, after, hrules, hbefore⟩
  · intro c rule
    unfold primary?
    exact List.head?_eq_some_iff

/-! ## Documents -/

section

variable {root v : Json} {sections : List (String × List Rule)}

theorem ofJson_of_no_sections (hroot : root.Distinct) (hv : root.HasField frameworkKey v)
    (h : ¬ ∃ sections, DecodesSections v sections) :
    ∃ reason, ofJson root = .error (.malformed reason) := by
  have hdistinct := hroot.value hv
  unfold ofJson
  rw [hroot.get?_eq_some_iff.2 hv]
  cases v with
  | obj fields =>
    dsimp only
    cases hsections : fields.mapM fun (k, v) => (section? v).map (k, ·) with
    | none => exact ⟨_, rfl⟩
    | some sections => exact absurd ⟨sections, (sections_eq_some hdistinct).1 hsections⟩ h
  | _ => exact ⟨_, rfl⟩

theorem ofJson_of_sections (hroot : root.Distinct) (hv : root.HasField frameworkKey v)
    (h : DecodesSections v sections) :
    ofJson root = match least? (unknownKeys sections) with
      | some k => .error (.unknownCategory k)
      | none => .ok (ofSections sections) := by
  have hdistinct := hroot.value hv
  obtain ⟨fields, rfl, hfields⟩ := h
  have hsections := (sections_eq_some hdistinct).2 ⟨fields, rfl, hfields⟩
  unfold ofJson
  rw [hroot.get?_eq_some_iff.2 hv]
  dsimp only
  rw [hsections]
  rfl

theorem ofJson_malformed_iff (hroot : root.Distinct) (hv : root.HasField frameworkKey v) :
    (∃ reason, ofJson root = .error (.malformed reason)) ↔
      ¬ ∃ sections, DecodesSections v sections := by
  constructor
  · rintro ⟨reason, hmalformed⟩ ⟨sections, h⟩
    rw [ofJson_of_sections hroot hv h] at hmalformed
    split at hmalformed <;> cases hmalformed
  · exact ofJson_of_no_sections hroot hv

theorem ofJson_missingSection_iff (hroot : root.Distinct) :
    ofJson root = .error (.missingSection frameworkKey) ↔
      ¬ ∃ v, root.HasField frameworkKey v := by
  constructor
  · rintro hmissing ⟨v, hv⟩
    by_cases h : ∃ sections, DecodesSections v sections
    · obtain ⟨sections, h⟩ := h
      rw [ofJson_of_sections hroot hv h] at hmissing
      split at hmissing <;> cases hmissing
    · obtain ⟨reason, hmalformed⟩ := ofJson_of_no_sections hroot hv h
      rw [hmalformed] at hmissing
      cases hmissing
  · intro h
    unfold ofJson
    rw [Json.get?_eq_none_iff.2 (not_exists.1 h)]

theorem ofJson_unknownCategory_iff (hroot : root.Distinct) (hv : root.HasField frameworkKey v)
    (h : DecodesSections v sections) (k : String) :
    ofJson root = .error (.unknownCategory k) ↔ LeastUnknown sections k := by
  rw [ofJson_of_sections hroot hv h]
  cases hleast : least? (unknownKeys sections) with
  | none =>
    simp only [reduceCtorEq, false_iff]
    exact fun hk => known_of_least?_eq_none hleast k hk.mem hk.unknown
  | some l =>
    have hl := leastUnknown_of_least? hleast
    constructor
    · intro he
      cases he
      exact hl
    · intro hk
      rw [hk.unique hl]

/-- A section is refused for a key, or it is loaded and every key is a category's. -/
theorem ofJson_unknown_or_loaded (hroot : root.Distinct) (hv : root.HasField frameworkKey v)
    (h : DecodesSections v sections) :
    (∃ k, LeastUnknown sections k) ∨
      (∀ k ∈ sections.map Prod.fst, ¬ UnknownKey k) ∧
        ∃ catalog, ofJson root = .ok catalog ∧ Holds catalog sections := by
  cases hleast : least? (unknownKeys sections) with
  | some k => exact Or.inl ⟨k, leastUnknown_of_least? hleast⟩
  | none =>
    have hknown := known_of_least?_eq_none hleast
    refine Or.inr ⟨hknown, ofSections sections, ?_, ?_⟩
    · rw [ofJson_of_sections hroot hv h, hleast]
    · exact holds_ofSections (h.nodup (hroot.value hv)) hknown

end

theorem ofText_of_parse?_none {t : Text} (h : Json.parse? t = none) :
    ∃ reason, ofText t = .error (.malformed reason) := by
  unfold ofText
  rw [h]
  exact ⟨_, rfl⟩

theorem ofText_of_parse?_some {t : Text} {root : Json} (h : Json.parse? t = some root) :
    ofText t = ofJson root := by
  unfold ofText
  rw [h]

/-! ## The law -/

/-- Loading is exact, and all or nothing. A document is missing its section exactly if its root
is no object with the section's key; otherwise it is malformed exactly if the section is no object
whose every value is a list of rules; otherwise it is refused for the first key, in the order of
bytes, that is no category's; and otherwise it is a catalog of just those rules. Rules are read
exactly as the names of their fields say, and a rule that is written is read back. A text that is
no JSON is malformed, and any other is loaded as the value that it says. -/
theorem loading_is_exact_and_all_or_nothing :
    (∀ root : Json, root.Distinct →
      (ofJson root = .error (.missingSection frameworkKey) ↔
        ¬ ∃ v, root.HasField frameworkKey v) ∧
      ∀ v, root.HasField frameworkKey v →
        ((∃ reason, ofJson root = .error (.malformed reason)) ↔
          ¬ ∃ sections, DecodesSections v sections) ∧
        ∀ sections, DecodesSections v sections →
          (∀ k, ofJson root = .error (.unknownCategory k) ↔ LeastUnknown sections k) ∧
          ((∃ k, LeastUnknown sections k) ∨
            (∀ k ∈ sections.map Prod.fst, ¬ UnknownKey k) ∧
              ∃ catalog, ofJson root = .ok catalog ∧ Holds catalog sections)) ∧
    (∀ j : Json, j.Distinct → ∀ rule, Rule.ofJson? j = some rule ↔ Rule.Decodes j rule) ∧
    (∀ rule : Rule, Rule.ofJson? rule.toJson = some rule) ∧
    ∀ t : Text,
      (Json.parse? t = none → ∃ reason, ofText t = .error (.malformed reason)) ∧
      ∀ root, Json.parse? t = some root → root.Distinct ∧ ofText t = ofJson root := by
  refine ⟨?_, ?_, Rule.ofJson?_toJson, ?_⟩
  · intro root hroot
    refine ⟨ofJson_missingSection_iff hroot, ?_⟩
    intro v hv
    refine ⟨ofJson_malformed_iff hroot hv, ?_⟩
    intro sections h
    exact ⟨ofJson_unknownCategory_iff hroot hv h, ofJson_unknown_or_loaded hroot hv h⟩
  · intro j hj rule
    exact Rule.ofJson?_eq_some_iff hj
  · intro t
    refine ⟨ofText_of_parse?_none, ?_⟩
    intro root h
    exact ⟨Json.distinct_of_parse? h, ofText_of_parse?_some h⟩

/-- A document with a rule as an object, which uses a second name, one as a list, and `more`
sections without rules. -/
def sampleDocument (more : List String) : Json :=
  let refs := Json.obj [("severity", .obj [("error", .null)]), ("deprecatedIn", .str "16.3.0"),
    ("name", .str "refs"), ("alternative", .str "useRef"), ("removedInVersion", .null)]
  let act := Json.arr [.str "act", .str "18.0.0", .str "19.0.0", .str "", .str "warning"]
  .obj [("version", .num (.ofNat 2)), (frameworkKey, .obj (("refs", .arr [refs]) ::
    ("others", .arr [act]) :: more.map fun k => (k, .arr [])))]

/-- The rules in it. -/
def sampleSections (more : List String) : List (String × List Rule) :=
  ("refs", [⟨"refs", "16.3.0", none, "useRef", .error, none⟩]) ::
    ("others", [⟨"act", "18.0.0", some "19.0.0", "", .warning, none⟩]) :: more.map fun k => (k, [])

theorem sampleDocument_distinct :
    (sampleDocument []).Distinct ∧ (sampleDocument ["😀", "ｚ"]).Distinct := by
  simp [sampleDocument, frameworkKey]

theorem sampleDocument_decodes (more : List String) :
    ∃ v, (sampleDocument more).HasField frameworkKey v ∧
      DecodesSections v (sampleSections more) := by
  refine ⟨_, Json.hasField_obj.2 (List.mem_cons_of_mem _ List.mem_cons_self), _, rfl, ?_⟩
  refine .cons ⟨rfl, _, rfl, .cons ?_ .nil⟩ (.cons ⟨rfl, _, rfl, .cons ?_ .nil⟩ ?_)
  · exact (Rule.ofJson?_eq_some_iff (by simp)).1 rfl
  · exact (Rule.ofJson?_eq_some_iff (by simp)).1 rfl
  · rw [List.forall₂_map_left_iff, List.forall₂_map_right_iff, List.forall₂_same]
    exact fun k _ => ⟨rfl, [], rfl, .nil⟩

theorem mem_of_unknown_sampleSections {more : List String} {k : String}
    (h : k ∈ (sampleSections more).map Prod.fst) (hunknown : UnknownKey k) : k ∈ more := by
  have hkeys : (sampleSections more).map Prod.fst =
      Category.refs.catalogKey :: Category.testing.catalogKey :: more := by
    simp [sampleSections, Category.catalogKey, Category.name, Function.comp_def]
  rw [hkeys] at h
  rcases List.mem_cons.1 h with rfl | h
  · exact absurd rfl (hunknown .refs)
  rcases List.mem_cons.1 h with rfl | h
  · exact absurd rfl (hunknown .testing)
  · exact h

theorem leastUnknown_sampleSections : LeastUnknown (sampleSections ["😀", "ｚ"]) "ｚ" := by
  refine ⟨by decide, ?_, ?_⟩
  · intro c
    cases c <;> decide
  · intro l hl hunknown hne
    have hmem := mem_of_unknown_sampleSections hl hunknown
    simp only [List.mem_cons, hne, List.not_mem_nil, or_false] at hmem
    subst hmem
    decide

/-- Of two unknown keys the one with the lesser bytes is named, though it stands behind the other;
without them all is loaded. -/
theorem sample_documents_are_refused_or_loaded :
    (sampleDocument ["😀", "ｚ"]).Distinct ∧
    ofJson (sampleDocument ["😀", "ｚ"]) = .error (.unknownCategory "ｚ") ∧
    (sampleDocument []).Distinct ∧
    ∃ catalog, ofJson (sampleDocument []) = .ok catalog ∧ Holds catalog (sampleSections []) := by
  obtain ⟨hknown, hstray⟩ := sampleDocument_distinct
  refine ⟨hstray, ?_, hknown, ?_⟩
  · obtain ⟨v, hv, hsections⟩ := sampleDocument_decodes ["😀", "ｚ"]
    have hkeys := ((loading_is_exact_and_all_or_nothing.1 _ hstray).2 v hv).2 _ hsections
    exact (hkeys.1 "ｚ").2 leastUnknown_sampleSections
  · obtain ⟨v, hv, hsections⟩ := sampleDocument_decodes []
    have hkeys := ((loading_is_exact_and_all_or_nothing.1 _ hknown).2 v hv).2 _ hsections
    rcases hkeys.2 with ⟨k, hk⟩ | ⟨_, hloaded⟩
    · cases mem_of_unknown_sampleSections hk.mem hk.unknown
    · exact hloaded

end Catalog

end Uplift
