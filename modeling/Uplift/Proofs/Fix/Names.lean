-- What a rename does to the names in a method. A sure rename onto the hook that
-- runs after an update takes the parameters along, and nothing asks whether their
-- new names are in use. So each name stays in its place or is that of a
-- parameter, and names become one exactly where a parameter meets its new name.
import Uplift.Proofs.Fix.Hooks
import Uplift.Proofs.Rename.Parameters

namespace Uplift.Fix

open Rename

/-- A rename that is proposed is sure, and shows the renamed text of the method it leads to. -/
theorem located_of_rename {tree : Snapshot} {issues : List Issue} {fix : Fix}
    (hfix : fix ∈ generateForTree tree issues) (hkind : fix.kind = .rename) :
    ∃ c m, locate? tree fix = some (c, m) ∧ fix.confidence = .high ∧
      fix.after = renamedText m (modernHook m.name) := by
  obtain ⟨issue, -, c, m, taken, -, hmade⟩ := madeOf_of_mem hfix
  obtain ⟨-, taken', hverdict⟩ := hmade.verdict
  exact ⟨c, m, hmade.located, hverdict.sure_iff.2 (Or.inr (Or.inr hkind)),
    (hverdict.of_rename hkind).2.2⟩

/-- A rename is sure. Where it is onto the hook that runs after an update, each name that the
method refers to stays in its place or is that of a parameter and gets its new name; and two
names become one exactly when the method refers to the new name of a parameter that is renamed
in it. -/
theorem a_rename_merges_names_exactly_where_the_new_one_is_in_use (tree : Snapshot)
    (issues : List Issue) (fix : Fix) (hfix : fix ∈ generateForTree tree issues)
    (hkind : fix.kind = .rename) :
    ∃ c m, locate? tree fix = some (c, m) ∧ fix.confidence = .high ∧
      (modernHook m.name = didUpdate →
        List.Forall₂ (fun x y => y = x ∨ ∃ r ∈ renamedParams, hasParam m r.1 r.2.1 = true ∧
            x = r.2.1.toList ∧ y = r.2.2.toList)
          (references (withName m didUpdate.toList)) (references fix.after) ∧
        (Merges (withName m didUpdate.toList) fix.after ↔
          Clashes m (withName m didUpdate.toList)) ∧
        ((∃ head tail, NameStands m head tail) →
          (Merges (withName m didUpdate.toList) fix.after ↔ Clashes m m.text))) := by
  obtain ⟨c, m, hlocated, hsure, hafter⟩ := located_of_rename hfix hkind
  refine ⟨c, m, hlocated, hsure, fun hhook => ?_⟩
  rw [hafter, hhook]
  refine ⟨references_renamedText m, merges_renamedText_iff m, ?_⟩
  rintro ⟨head, tail, hname⟩
  rw [merges_renamedText_iff, hname.clashes_iff hhook]

/-! ## A method that has the former props already -/

def clashBinding : Text := "const prevProps = this.props;".toList

def clashBody : Text :=
  "\x7b ".toList ++ clashBinding ++ " go(prevProps, nextProps);".toList ++ " \x7d".toList

def clashText : Text := "componentWillUpdate".toList ++ "(nextProps) ".toList ++ clashBody

/-- A method that calls the former props by the name that the parameter would get. -/
def clashMethod : Method :=
  { name := "componentWillUpdate", isStatic := false, isAsync := false
    params := [⟨"nextProps", .onLine 2 10 32 41⟩]
    body := some ⟨clashBody, .onLine 2 10 43 102,
      [⟨clashBinding, .onLine 2 10 45 74⟩,
        ⟨"go(prevProps, nextProps);".toList, .onLine 2 10 75 100⟩]⟩
    nameSpan := .onLine 2 10 12 31, text := clashText, span := .onLine 2 10 12 102 }

def clashClass : ClassDecl :=
  ⟨some "A", [clashMethod], [], ⟨8, 104, 1, 9, 3⟩, ⟨0, 104, 1, 1, 3⟩⟩

def clashTree : Snapshot :=
  { Snapshot.blank "A.jsx" .javaScript
      ("class A \x7b\n  ".toList ++ clashText ++ "\n\x7d\n".toList) with
    classes := [clashClass]
    calls := [⟨"go", ["prevProps".toList, "nextProps".toList], .onLine 2 10 75 99⟩]
    members := [⟨"this", "props", .onLine 2 10 63 73⟩] }

def clashIssue : Issue :=
  .ofRule ⟨"componentWillUpdate", "16.3.0", none, "", .warning, none⟩ .lifecycleMethods
    "componentWillUpdate" "A.jsx" clashMethod.span ""

/-- The rename that is proposed for it. -/
def clashRename : Fix :=
  about clashIssue clashMethod .simpleSideEffect .rename .high
    "Rename componentWillUpdate to componentDidUpdate"
    ("componentDidUpdate".toList ++ "(prevProps) ".toList ++ "\x7b ".toList ++ clashBinding ++
      " go(prevProps, prevProps);".toList ++ " \x7d".toList)

theorem clashRename_generated :
    clashTree.WellFormed ∧ clashRename ∈ generateForTree clashTree [clashIssue] ∧
      locate? clashTree clashRename = some (clashClass, clashMethod) := by
  decide +kernel

/-- The method has its name, its parameter and the name that the parameter gets, all in code. -/
theorem clashMethod_words :
    modernHook clashMethod.name = didUpdate ∧ hasParam clashMethod 0 "nextProps" = true ∧
      NameStands clashMethod [] (clashText.drop 19) ∧
      (WordIn clashText "nextProps".toList (clashText.take 20) (clashText.drop 29) ∧
        ¬ ['.'] <:+ clashText.take 20) ∧
      WordIn clashText "prevProps".toList (clashText.take 39) (clashText.drop 48) ∧
        ¬ ['.'] <:+ clashText.take 39 := by
  decide +kernel

theorem clashMethod_refersTo : RefersTo clashMethod.text "prevProps".toList := by
  obtain ⟨-, -, -, -, hword, hdot⟩ := clashMethod_words
  exact ⟨_, _, hword, fun hproperty => hdot hproperty.1⟩

/-- The former props and the parameter become one. -/
theorem former_props_are_merged :
    clashRename ∈ generateForTree clashTree [clashIssue] ∧ clashRename.kind = .rename ∧
      NameStands clashMethod [] (clashText.drop 19) ∧ Clashes clashMethod clashMethod.text ∧
      Merges (withName clashMethod didUpdate.toList) clashRename.after := by
  obtain ⟨-, hfix, hmethod⟩ := clashRename_generated
  obtain ⟨hhook, hparam, hname, hold, -⟩ := clashMethod_words
  have hclashes : Clashes clashMethod clashMethod.text :=
    ⟨(0, "nextProps", "prevProps"), List.mem_cons_self, hparam, clashMethod_refersTo, _, _, hold⟩
  obtain ⟨c, m, hlocated, -, hnames⟩ := a_rename_merges_names_exactly_where_the_new_one_is_in_use
    clashTree [clashIssue] clashRename hfix rfl
  rw [hmethod] at hlocated
  obtain ⟨rfl, rfl⟩ := Prod.mk.inj (Option.some.inj hlocated)
  obtain ⟨-, -, hmerges⟩ := hnames hhook
  exact ⟨hfix, rfl, hname, hclashes, (hmerges ⟨_, _, hname⟩).2 hclashes⟩

/-- A sure rename can give a parameter a name that its method has in use. -/
theorem a_sure_rename_can_take_a_name_in_use :
    ¬ ∀ (tree : Snapshot) (issues : List Issue), tree.WellFormed →
      ∀ fix ∈ generateForTree tree issues, fix.kind = .rename → fix.confidence = .high →
        ∀ c m, locate? tree fix = some (c, m) → modernHook m.name = didUpdate →
          ∀ r ∈ renamedParams, hasParam m r.1 r.2.1 = true → ¬ RefersTo m.text r.2.2.toList := by
  intro h
  obtain ⟨hwell, hfix, hlocated⟩ := clashRename_generated
  obtain ⟨hhook, hparam, -⟩ := clashMethod_words
  exact h clashTree [clashIssue] hwell clashRename hfix rfl rfl _ _ hlocated hhook
    (0, "nextProps", "prevProps") List.mem_cons_self hparam clashMethod_refersTo

end Uplift.Fix
