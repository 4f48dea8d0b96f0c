-- What becomes of the words of a method when the method is renamed. Its name is
-- one word, and the parameters that go with it are renamed word by word, each
-- word on its own; so a text is taken as the list of its words in code, each with
-- the dots before it. One dot before a word tells the name of a property, but
-- three of them spread what the word refers to. Words behind dots are not
-- renamed, and so a parameter is left behind exactly where it is spread. Words
-- that are kept may be spelled like a new name, and so names become one exactly
-- where a parameter meets the name it gets.
import Mathlib.Data.List.Forall2
import Uplift.Proofs.Rename.Respelling
import Uplift.Proofs.Snapshot.Spans
import Uplift.Rename.Method

namespace Uplift.Rename

/-! ## The words in code -/

/-- The words in the code of a text in order, each with the number of dots right before it. -/
def codeWords (text : Text) : List (Text × Nat) := (pieces text).filterMap Piece.codeWord?

/-- What can be told of a word from the text before it by its dots alone can be told from their
number. -/
theorem exists_wordIn_iff {text name : Text} (hname : IsWord name) {Before : Text → Prop}
    {Dots : Nat → Prop}
    (h : ∀ pre n, (∀ k, List.replicate k '.' <:+ pre ↔ k ≤ n) → (Before pre ↔ Dots n)) :
    (∃ pre post, WordIn text name pre post ∧ Before pre) ↔
      ∃ n, (name, n) ∈ codeWords text ∧ Dots n := by
  constructor
  · rintro ⟨pre, post, hword, hbefore⟩
    obtain ⟨qs, p, rs, n, hp, hx, rfl, rfl⟩ := (wordIn_iff hname).1 hword
    refine ⟨n, List.mem_filterMap.2 ⟨p, by simp [hp], hx⟩, ?_⟩
    exact (h _ n (dots_suffix_iff_of_pieces hp hx)).1 hbefore
  · rintro ⟨n, hmem, hdots⟩
    obtain ⟨p, hp, hx⟩ := List.mem_filterMap.1 hmem
    obtain ⟨qs, rs, hp⟩ := List.append_of_mem hp
    refine ⟨textOf qs, textOf rs, (wordIn_iff hname).2 ⟨qs, p, rs, n, hp, hx, rfl, rfl⟩, ?_⟩
    exact (h _ n (dots_suffix_iff_of_pieces hp hx)).2 hdots

/-- A word behind `pre` is the name of a property: a dot stands before it, and no spread. -/
def PropertyAfter (pre : Text) : Prop := ['.'] <:+ pre ∧ ¬ ['.', '.', '.'] <:+ pre

/-- The code of `text` refers to `name`: as a word, and not as the name of a property. -/
def RefersTo (text name : Text) : Prop :=
  ∃ pre post, WordIn text name pre post ∧ ¬ PropertyAfter pre

/-- The code of `text` spreads `name`. -/
def Spreads (text name : Text) : Prop :=
  ∃ pre post, WordIn text name pre post ∧ ['.', '.', '.'] <:+ pre

section

variable {text name : Text}

theorem refersTo_iff (hname : IsWord name) :
    RefersTo text name ↔ ∃ n, (name, n) ∈ codeWords text ∧ (n = 0 ∨ 3 ≤ n) := by
  refine exists_wordIn_iff hname fun pre n hdots => ?_
  have hone : ['.'] <:+ pre ↔ 1 ≤ n := hdots 1
  have hthree : ['.', '.', '.'] <:+ pre ↔ 3 ≤ n := hdots 3
  rw [PropertyAfter, hone, hthree]
  omega

/-- A word that stands behind no dot is one that counts none. -/
theorem exists_plain_iff (hname : IsWord name) :
    (∃ pre post, WordIn text name pre post ∧ ¬ ['.'] <:+ pre) ↔ (name, 0) ∈ codeWords text := by
  have hplain : (∃ pre post, WordIn text name pre post ∧ ¬ ['.'] <:+ pre) ↔
      ∃ n, (name, n) ∈ codeWords text ∧ n = 0 := by
    refine exists_wordIn_iff hname fun pre n hdots => ?_
    have hone : ['.'] <:+ pre ↔ 1 ≤ n := hdots 1
    rw [hone]
    omega
  simpa using hplain

theorem spreads_iff (hname : IsWord name) :
    Spreads text name ↔ ∃ n, (name, n) ∈ codeWords text ∧ 3 ≤ n :=
  exists_wordIn_iff hname fun _ _ hdots => hdots 3

/-! ## Words that are spelled otherwise -/

variable {target : Text}

theorem codeWords_renameIdentifier (hname : IsWord name) (htarget : IsWord target) (text : Text) :
    codeWords (renameIdentifier text name target) =
      (codeWords text).map fun w => if w = (name, 0) then (target, 0) else w := by
  rw [codeWords, pieces_renameIdentifier hname htarget, List.filterMap_map, codeWords,
    List.map_filterMap]
  refine List.filterMap_congr fun p _ => ?_
  rw [Function.comp_apply, Piece.codeWord?_respell htarget.1]
  cases p.codeWord? with
  | none => rfl
  | some w => by_cases hw : w = (name, 0) <;> simp [hw]

/-- A word that is put in the place of another changes nothing about the others. -/
theorem mem_codeWords_respell_one {pre post : Text} (hname : IsWord name)
    (hword : WordIn text name pre post) (hdot : ¬ ['.'] <:+ pre) (htarget : IsWord target)
    {w : Text × Nat} (hw : w ≠ (name, 0)) (hw' : w ≠ (target, 0)) :
    w ∈ codeWords (pre ++ target ++ post) ↔ w ∈ codeWords text := by
  obtain ⟨qs, p, rs, n, hp, hx, rfl, rfl⟩ := (wordIn_iff hname).1 hword
  obtain rfl : n = 0 := by
    have hone : ['.'] <:+ textOf qs ↔ 1 ≤ n := dots_suffix_iff_of_pieces hp hx 1
    rw [hone] at hdot
    omega
  have hnew : (Piece.word (target.map (·, true)) 0).codeWord? = some (target, 0) := by
    obtain ⟨c, t, rfl⟩ := List.exists_cons_of_ne_nil htarget.1
    simp [Piece.codeWord?, Function.comp_def]
  rw [codeWords, codeWords, pieces_respell_one hp hx htarget, hp]
  simp [hnew, hx, hw, hw']

end

/-! ## A method under a new name -/

/-- `m` has its name where the span of the name says, as a word in code behind no dot. -/
@[mk_iff nameStands_iff_and]
structure NameStands (m : Method) (head tail : Text) : Prop where
  letters : IsWord m.name.toList
  word : WordIn m.text m.name.toList head tail
  plain : ¬ ['.'] <:+ head
  start : m.nameSpan.start = m.span.start + head.width
  stop : m.nameSpan.stop = m.nameSpan.start + Text.width m.name.toList

instance (m : Method) (head tail : Text) : Decidable (NameStands m head tail) :=
  decidable_of_iff _ (nameStands_iff_and m head tail).symm

theorem NameStands.withName_eq {m : Method} {head tail : Text} (h : NameStands m head tail)
    (target : Text) : withName m target = head ++ target ++ tail := by
  have hstart : m.nameSpan.start - m.span.start = head.width := by
    rw [h.start, Nat.add_sub_cancel_left]
  have hstop : head.width + m.nameSpan.stop - m.nameSpan.start =
      (head ++ m.name.toList).width := by
    rw [h.stop, Text.width_append]
    omega
  have hhead : m.text.cut? head.width = some (head, m.name.toList ++ tail) := by
    rw [h.word.split, List.append_assoc]
    exact Text.cut?_append _ _
  have htail : m.text.cut? (head ++ m.name.toList).width = some (head ++ m.name.toList, tail) := by
    rw [h.word.split]
    exact Text.cut?_append _ _
  have hfits : m.nameSpan.start ≤ head.width + m.nameSpan.stop := by
    rw [h.stop]
    omega
  simp only [withName, hstart, hstop, hhead, htail]
  exact if_pos hfits

/-- A method whose name stands where it should has the same other words under a new name. -/
theorem NameStands.mem_codeWords {m : Method} {head tail : Text} (h : NameStands m head tail)
    {target : Text} (htarget : IsWord target) {w : Text × Nat}
    (hw : w ≠ (m.name.toList, 0)) (hw' : w ≠ (target, 0)) :
    w ∈ codeWords (withName m target) ↔ w ∈ codeWords m.text := by
  rw [h.withName_eq]
  exact mem_codeWords_respell_one h.letters h.word h.plain htarget hw hw'

/-! ## The parameters of a method under a new name -/

theorem isWord_renamedParams :
    ∀ r ∈ renamedParams, IsWord r.2.1.toList ∧ IsWord r.2.2.toList := by decide

/-- No parameter is renamed twice, and none gets a name that is renamed in its turn. -/
theorem renamedParams_apart : ∀ r ∈ renamedParams, ∀ s ∈ renamedParams,
    (r.2.1.toList = s.2.1.toList → r = s) ∧ (r.2.2.toList = s.2.2.toList → r = s) ∧
      r.2.2.toList ≠ s.2.1.toList := by decide

/-- What becomes of a word when the parameters of `m` are renamed. -/
def renamedWord (m : Method) (w : Text × Nat) : Text × Nat :=
  renamedParams.foldl (fun w (i, old, new) =>
    if hasParam m i old ∧ w = (old.toList, 0) then (new.toList, 0) else w) w

theorem codeWords_foldl_renameIdentifier (m : Method) (rs : List (Nat × String × String))
    (hrs : ∀ r ∈ rs, IsWord r.2.1.toList ∧ IsWord r.2.2.toList) (text : Text) :
    codeWords (rs.foldl (fun t (i, old, new) =>
        if hasParam m i old then renameIdentifier t old.toList new.toList else t) text) =
      (codeWords text).map fun w => rs.foldl (fun w (i, old, new) =>
        if hasParam m i old ∧ w = (old.toList, 0) then (new.toList, 0) else w) w := by
  induction rs generalizing text with
  | nil => simp
  | cons r rs ih =>
    obtain ⟨hold, hnew⟩ := hrs r List.mem_cons_self
    rw [List.foldl_cons, ih fun s hs => hrs s (List.mem_cons_of_mem r hs)]
    by_cases hparam : hasParam m r.1 r.2.1 = true
    · simp [hparam, codeWords_renameIdentifier hold hnew, Function.comp_def]
    · simp [hparam]

/-- The words of a renamed method are its words under the new name, each renamed on its own. -/
theorem codeWords_renamedText (m : Method) :
    codeWords (renamedText m didUpdate) =
      (codeWords (withName m didUpdate.toList)).map (renamedWord m) := by
  have htarget : (didUpdate == didUpdate) = true := by decide
  rw [renamedText, if_pos htarget]
  exact codeWords_foldl_renameIdentifier m renamedParams isWord_renamedParams _

/-- A word is that of a parameter and gets its new name, or it is no such word and is kept. -/
theorem renamedWord_cases (m : Method) (w : Text × Nat) :
    (∃ r ∈ renamedParams, hasParam m r.1 r.2.1 = true ∧ w = (r.2.1.toList, 0) ∧
        renamedWord m w = (r.2.2.toList, 0)) ∨
      (renamedWord m w = w ∧
        ∀ r ∈ renamedParams, hasParam m r.1 r.2.1 = true → w ≠ (r.2.1.toList, 0)) := by
  have hother : (("prevProps".toList, 0) : Text × Nat) ≠ ("nextState".toList, 0) := by decide
  simp only [renamedWord, renamedParams, List.foldl_cons, List.foldl_nil, List.mem_cons,
    List.not_mem_nil, or_false, exists_eq_or_imp, exists_eq_left, forall_eq_or_imp, forall_eq]
  by_cases hprops : hasParam m 0 "nextProps" = true ∧ w = ("nextProps".toList, 0)
  · rw [if_pos hprops, if_neg fun h => hother h.2]
    exact Or.inl (Or.inl ⟨hprops.1, hprops.2, rfl⟩)
  · rw [if_neg hprops]
    by_cases hstate : hasParam m 1 "nextState" = true ∧ w = ("nextState".toList, 0)
    · rw [if_pos hstate]
      exact Or.inl (Or.inr ⟨hstate.1, hstate.2, rfl⟩)
    · rw [if_neg hstate]
      exact Or.inr ⟨rfl, not_and.1 hprops, not_and.1 hstate⟩

section

variable {m : Method} {r : Nat × String × String}

/-- The old name of a parameter is left where dots stand before it, and nowhere else. -/
theorem mem_codeWords_renamedText_old (hr : r ∈ renamedParams)
    (hparam : hasParam m r.1 r.2.1 = true) (n : Nat) :
    (r.2.1.toList, n) ∈ codeWords (renamedText m didUpdate) ↔
      n ≠ 0 ∧ (r.2.1.toList, n) ∈ codeWords (withName m didUpdate.toList) := by
  rw [codeWords_renamedText, List.mem_map]
  constructor
  · rintro ⟨w, hmem, hw⟩
    rcases renamedWord_cases m w with ⟨s, hs, -, -, hnew⟩ | ⟨hkept, hno⟩
    · have hfirst : s.2.2.toList = r.2.1.toList := (Prod.mk.inj (hnew.symm.trans hw)).1
      exact absurd hfirst (renamedParams_apart s hs r hr).2.2
    · obtain rfl : w = (r.2.1.toList, n) := hkept.symm.trans hw
      refine ⟨?_, hmem⟩
      rintro rfl
      exact hno r hr hparam rfl
  · rintro ⟨hn, hmem⟩
    refine ⟨_, hmem, ?_⟩
    rcases renamedWord_cases m (r.2.1.toList, n) with ⟨s, _, _, hs, -⟩ | ⟨hkept, -⟩
    · exact absurd (Prod.mk.inj hs).2 hn
    · exact hkept

end

/-- A parameter that is renamed with its method is left behind a dot at most, and it is still
referred to exactly when it was spread. Where the name of the method stands in its place, that
can be told from the text of the method. -/
theorem a_renamed_parameter_dangles_exactly_where_it_is_spread (m : Method)
    (r : Nat × String × String) (hr : r ∈ renamedParams)
    (hparam : hasParam m r.1 r.2.1 = true) :
    (∀ pre post, WordIn (renamedText m didUpdate) r.2.1.toList pre post → ['.'] <:+ pre) ∧
      (RefersTo (renamedText m didUpdate) r.2.1.toList ↔
        Spreads (withName m didUpdate.toList) r.2.1.toList) ∧
      ((∃ head tail, NameStands m head tail) →
        (RefersTo (renamedText m didUpdate) r.2.1.toList ↔ Spreads m.text r.2.1.toList)) := by
  obtain ⟨hold, -⟩ := isWord_renamedParams r hr
  have hleft := mem_codeWords_renamedText_old hr hparam
  have hdangles : RefersTo (renamedText m didUpdate) r.2.1.toList ↔
      Spreads (withName m didUpdate.toList) r.2.1.toList := by
    rw [refersTo_iff hold, spreads_iff hold]
    refine exists_congr fun n => ?_
    rw [hleft]
    constructor
    · rintro ⟨⟨hn, hmem⟩, hrefers⟩
      exact ⟨hmem, hrefers.resolve_left hn⟩
    · rintro ⟨hmem, hn⟩
      exact ⟨⟨by omega, hmem⟩, Or.inr hn⟩
  refine ⟨?_, hdangles, ?_⟩
  · intro pre post hword
    by_contra hdot
    have hmem := (exists_plain_iff hold).1 ⟨pre, post, hword, hdot⟩
    exact ((hleft 0).1 hmem).1 rfl
  · rintro ⟨head, tail, hname⟩
    rw [hdangles, spreads_iff hold, spreads_iff hold]
    refine exists_congr fun n => and_congr_left fun hn => ?_
    have hother : ∀ x : Text, (r.2.1.toList, n) ≠ (x, 0) := by
      intro x heq
      have hzero : n = 0 := (Prod.mk.inj heq).2
      omega
    exact hname.mem_codeWords (by decide) (hother _) (hother _)

def spreadingStatement : Text := "log(\x7b ...nextProps \x7d, ".toList ++ "this.nextProps);".toList

def spreadingBody : Text := "\x7b ".toList ++ spreadingStatement ++ " \x7d".toList

/-- A method that spreads its parameter and reads a property of the same name. -/
def spreading : Method :=
  { name := "componentWillUpdate", isStatic := false, isAsync := false
    params := [⟨"nextProps", .onLine 1 0 20 29⟩]
    body := some ⟨spreadingBody, .onLine 1 0 31 73, [⟨spreadingStatement, .onLine 1 0 33 71⟩]⟩
    nameSpan := .onLine 1 0 0 19
    text := "componentWillUpdate".toList ++ "(nextProps) ".toList ++ spreadingBody
    span := .onLine 1 0 0 73 }

/-- The spread refers to a parameter that is no longer there. -/
theorem spread_parameter_dangles :
    (0, "nextProps", "prevProps") ∈ renamedParams ∧ hasParam spreading 0 "nextProps" = true ∧
      NameStands spreading [] (spreading.text.drop 19) ∧
      renamedText spreading didUpdate =
        "componentDidUpdate".toList ++ "(prevProps) ".toList ++ spreadingBody ∧
      RefersTo (renamedText spreading didUpdate) "nextProps".toList := by
  have hr : (0, "nextProps", "prevProps") ∈ renamedParams := by decide
  have hparam : hasParam spreading 0 "nextProps" = true := by decide +kernel
  have hname : NameStands spreading [] (spreading.text.drop 19) := by decide +kernel
  have hspreads : Spreads spreading.text "nextProps".toList :=
    ⟨spreading.text.take 42, spreading.text.drop 51, by decide +kernel, by decide +kernel⟩
  obtain ⟨-, -, hdangles⟩ :=
    a_renamed_parameter_dangles_exactly_where_it_is_spread spreading _ hr hparam
  exact ⟨hr, hparam, hname, by decide +kernel, (hdangles ⟨_, _, hname⟩).2 hspreads⟩

/-! ## Names that become one -/

/-- The words of a text that refer to something, in order. -/
def referring (text : Text) : List (Text × Nat) :=
  (codeWords text).filter fun w => w.2 = 0 ∨ 3 ≤ w.2

/-- The names that a text refers to, in order. -/
def references (text : Text) : List Text := (referring text).map Prod.fst

/-- Two names that `before` keeps apart are one in `after`, which has its names in their places. -/
def Merges (before after : Text) : Prop :=
  ∃ u ∈ (references before).zip (references after),
    ∃ v ∈ (references before).zip (references after), u.1 ≠ v.1 ∧ u.2 = v.2

/-- `text` refers to the new name of a parameter of `m` and has the parameter where it is
renamed. -/
def Clashes (m : Method) (text : Text) : Prop :=
  ∃ r ∈ renamedParams, hasParam m r.1 r.2.1 = true ∧ RefersTo text r.2.2.toList ∧
    ∃ pre post, WordIn text r.2.1.toList pre post ∧ ¬ ['.'] <:+ pre

theorem renamedWord_dots (m : Method) (w : Text × Nat) : (renamedWord m w).2 = w.2 := by
  rcases renamedWord_cases m w with ⟨r, -, -, rfl, hnew⟩ | ⟨hkept, -⟩
  · rw [hnew]
  · rw [hkept]

/-- What refers to something before a renaming does so after it. -/
theorem referring_renamedText (m : Method) :
    referring (renamedText m didUpdate) =
      (referring (withName m didUpdate.toList)).map (renamedWord m) := by
  rw [referring, codeWords_renamedText, List.filter_map, referring]
  congr 2
  funext w
  simp [renamedWord_dots]

theorem zip_references (m : Method) :
    (references (withName m didUpdate.toList)).zip (references (renamedText m didUpdate)) =
      (referring (withName m didUpdate.toList)).map fun w => (w.1, (renamedWord m w).1) := by
  rw [references, references, referring_renamedText, List.map_map, List.zip_map']
  rfl

theorem refersTo_iff_exists {text name : Text} (hname : IsWord name) :
    RefersTo text name ↔ ∃ n, (name, n) ∈ referring text := by
  simp [refersTo_iff hname, referring]

theorem exists_plain_iff_referring {text name : Text} (hname : IsWord name) :
    (∃ pre post, WordIn text name pre post ∧ ¬ ['.'] <:+ pre) ↔ (name, 0) ∈ referring text := by
  rw [exists_plain_iff hname]
  simp [referring]

/-- Each name that is referred to stays in its place or is that of a parameter that is renamed. -/
theorem references_renamedText (m : Method) :
    List.Forall₂ (fun x y => y = x ∨ ∃ r ∈ renamedParams, hasParam m r.1 r.2.1 = true ∧
        x = r.2.1.toList ∧ y = r.2.2.toList)
      (references (withName m didUpdate.toList)) (references (renamedText m didUpdate)) := by
  rw [references, references, referring_renamedText, List.map_map, List.forall₂_map_left_iff,
    List.forall₂_map_right_iff, List.forall₂_same]
  intro w _
  rcases renamedWord_cases m w with ⟨r, hr, hparam, rfl, hnew⟩ | ⟨hkept, -⟩
  · exact Or.inr ⟨r, hr, hparam, rfl, congrArg Prod.fst hnew⟩
  · exact Or.inl (congrArg Prod.fst hkept)

section

variable {m : Method} {text : Text}

/-- A parameter that is renamed meets another name only where that is its new name. -/
theorem clashes_of_merged {r : Nat × String × String} (hr : r ∈ renamedParams)
    (hparam : hasParam m r.1 r.2.1 = true) (hold : (r.2.1.toList, 0) ∈ referring text)
    {w : Text × Nat} (hw : w ∈ referring text) (hne : w.1 ≠ r.2.1.toList)
    (heq : (renamedWord m w).1 = r.2.2.toList) : Clashes m text := by
  obtain ⟨hword, hword'⟩ := isWord_renamedParams r hr
  refine ⟨r, hr, hparam, ?_, (exists_plain_iff_referring hword).2 hold⟩
  rcases renamedWord_cases m w with ⟨s, hs, -, rfl, hnew⟩ | ⟨hkept, -⟩
  · rw [hnew] at heq
    obtain rfl := (renamedParams_apart s hs r hr).2.1 heq
    exact absurd rfl hne
  · rw [hkept] at heq
    exact (refersTo_iff_exists hword').2 ⟨w.2, heq ▸ hw⟩

theorem renamedWord_old {r : Nat × String × String} (hr : r ∈ renamedParams)
    (hparam : hasParam m r.1 r.2.1 = true) :
    renamedWord m (r.2.1.toList, 0) = (r.2.2.toList, 0) := by
  rcases renamedWord_cases m (r.2.1.toList, 0) with ⟨s, hs, -, heq, hnew⟩ | ⟨-, hno⟩
  · obtain rfl := (renamedParams_apart r hr s hs).1 (Prod.mk.inj heq).1
    exact hnew
  · exact absurd rfl (hno r hr hparam)

theorem renamedWord_new {r : Nat × String × String} (hr : r ∈ renamedParams) (n : Nat) :
    renamedWord m (r.2.2.toList, n) = (r.2.2.toList, n) := by
  rcases renamedWord_cases m (r.2.2.toList, n) with ⟨s, hs, -, heq, -⟩ | ⟨hkept, -⟩
  · exact absurd (Prod.mk.inj heq).1 (renamedParams_apart r hr s hs).2.2
  · exact hkept

end

/-- Names are merged exactly where a parameter meets its new name. -/
theorem merges_renamedText_iff (m : Method) :
    Merges (withName m didUpdate.toList) (renamedText m didUpdate) ↔
      Clashes m (withName m didUpdate.toList) := by
  rw [Merges, zip_references]
  constructor
  · rintro ⟨u, hu, v, hv, hne, heq⟩
    obtain ⟨w, hw, rfl⟩ := List.mem_map.1 hu
    obtain ⟨x, hx, rfl⟩ := List.mem_map.1 hv
    dsimp only at hne heq
    rcases renamedWord_cases m w with ⟨r, hr, hparam, rfl, hnew⟩ | ⟨hkept, -⟩
    · rw [hnew] at heq
      exact clashes_of_merged hr hparam hw hx hne.symm heq.symm
    · rcases renamedWord_cases m x with ⟨r, hr, hparam, rfl, hnew⟩ | ⟨hkept', -⟩
      · rw [hnew] at heq
        exact clashes_of_merged hr hparam hx hw hne heq
      · rw [hkept, hkept'] at heq
        exact absurd heq hne
  · rintro ⟨r, hr, hparam, hnew, hold⟩
    obtain ⟨hword, hword'⟩ := isWord_renamedParams r hr
    obtain ⟨n, hnew⟩ := (refersTo_iff_exists hword').1 hnew
    have hold := (exists_plain_iff_referring hword).1 hold
    refine ⟨_, List.mem_map_of_mem hold, _, List.mem_map_of_mem hnew, ?_, ?_⟩
    · exact (renamedParams_apart r hr r hr).2.2.symm
    · rw [renamedWord_old hr hparam, renamedWord_new hr]

/-- No parameter that is renamed is called like a method that goes with it. -/
theorem modernHook_renamedParams : ∀ r ∈ renamedParams,
    modernHook r.2.1 ≠ didUpdate ∧ modernHook r.2.2 ≠ didUpdate := by decide

section

variable {m : Method} {head tail : Text}

/-- Names that no method goes by are the same in the text of a method and under its new name. -/
theorem NameStands.mem_codeWords_iff (h : NameStands m head tail)
    (hhook : modernHook m.name = didUpdate) {x : String} (hx : modernHook x ≠ didUpdate) (n : Nat) :
    (x.toList, n) ∈ codeWords (withName m didUpdate.toList) ↔ (x.toList, n) ∈ codeWords m.text := by
  have hother : ∀ y, modernHook y = didUpdate → (x.toList, n) ≠ (y.toList, 0) := by
    intro y hy heq
    obtain rfl : x = y := String.toList_inj.1 (Prod.mk.inj heq).1
    exact hx hy
  exact h.mem_codeWords (by decide) (hother m.name hhook) (hother didUpdate (by decide))

/-- Where the name of a method stands in its place, the text of the method tells of clashes. -/
theorem NameStands.clashes_iff (h : NameStands m head tail)
    (hhook : modernHook m.name = didUpdate) :
    Clashes m (withName m didUpdate.toList) ↔ Clashes m m.text := by
  refine exists_congr fun r => and_congr_right fun hr => and_congr_right fun _ => ?_
  obtain ⟨hold, hnew⟩ := isWord_renamedParams r hr
  obtain ⟨hother, hother'⟩ := modernHook_renamedParams r hr
  simp only [refersTo_iff hnew, exists_plain_iff hold, h.mem_codeWords_iff hhook hother,
    h.mem_codeWords_iff hhook hother']

end

end Uplift.Rename
