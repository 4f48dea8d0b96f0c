-- Where the splitter cuts. Between two cuts it sets down at most one entry, and
-- behind a cut it starts anew. So a text is cut at given commas, and into what
-- stands between them, exactly when each part by itself is read as one entry and
-- leaves nothing open for the next.
import Mathlib.Algebra.Order.BigOperators.Group.List
import Mathlib.Algebra.Order.Group.Nat
import Uplift.Proofs.State.Commas

namespace Uplift.State

open Text (isBlankText)

/-! ## Cuts -/

theorem Spot.isClosed_slash (d : Nat) : (slash d).isClosed = (code d).isClosed := by
  cases d <;> rfl

namespace Splitter

/-- The character ends an entry. -/
def cutsAt (s : Splitter) (c : Char) : Bool := c == ',' && s.spot.isClosed

/-- For each character of the text, whether it ends an entry. -/
def cuts (s : Splitter) : Text → List Bool
  | [] => []
  | c :: t => s.cutsAt c :: (s.step c).cuts t

@[simp]
theorem length_cuts (s : Splitter) (t : Text) : (s.cuts t).length = t.length := by
  induction t generalizing s with
  | nil => rfl
  | cons c t ih => rw [cuts, List.length_cons, List.length_cons, ih]

theorem cuts_append (s : Splitter) (t u : Text) :
    s.cuts (t ++ u) = s.cuts t ++ (t.foldl step s).cuts u := by
  induction t generalizing s with
  | nil => rfl
  | cons c t ih => rw [List.cons_append, cuts, cuts, ih, List.foldl_cons, List.cons_append]

/-- Where it cuts depends on the spot alone. -/
theorem cuts_congr {s s' : Splitter} (h : s.spot = s'.spot) (t : Text) : s.cuts t = s'.cuts t := by
  induction t generalizing s s' with
  | nil => rfl
  | cons c t ih =>
    have hnext : (s.step c).spot = (s'.step c).spot := by rw [step_spot, step_spot, h]
    rw [cuts, cuts, cutsAt, cutsAt, h, ih hnext]

end Splitter

/-- The marks of a text that is not cut. -/
def uncut (t : Text) : List Bool := t.map fun _ => false

/-- A text as one entry. A blank text is none. -/
def whole (t : Text) : List RawEntry :=
  if (Text.trim t).isEmpty then [] else [⟨Text.trim t, none⟩]

namespace Splitter

variable {s : Splitter} {c : Char} {t : Text}

theorem length_done_endComment (s : Splitter) (read : Text) :
    (s.endComment read).done.length = s.done.length := by
  unfold endComment attachToLast
  dsimp only
  split_ifs
  · rfl
  · rfl
  · split
    · rfl
    · rename_i e he
      have hne : s.done ≠ [] := by
        rintro hnil
        rw [hnil] at he
        cases he
      have hpos := List.length_pos_iff.2 hne
      simp only [List.length_append, List.length_dropLast, List.length_singleton]
      omega
  · rfl

theorem readCode_done (hs : s.mode = .code) (hc : s.cutsAt c = false) :
    (s.readCode c).done = s.done := by
  refine (readCode_copies hs ?_).done
  rintro ⟨rfl, hdepth⟩
  simp [cutsAt, spot, hs, hdepth, Spot.isClosed] at hc

/-- A character that ends no entry leaves those that are set down. -/
theorem length_done_step (hc : s.cutsAt c = false) : (s.step c).done.length = s.done.length := by
  unfold step
  split
  · rename_i hm
    rw [readCode_done hm hc]
  · rename_i hm
    split_ifs
    · rfl
    · rfl
    · rw [readCode_done rfl]
      · rfl
      · simpa [cutsAt, spot, hm, Spot.isClosed_slash] using hc
  · split_ifs <;> rfl
  · rfl
  · rename_i read _
    split_ifs with hnl
    · obtain ⟨hcode, _⟩ := s.endComment_spot read
      rw [readCode_done hcode (by simp [cutsAt, hnl]), length_done_endComment]
    · rfl
  · split_ifs
    · exact length_done_endComment s _
    · rfl

theorem length_done_foldl (ht : s.cuts t = uncut t) :
    (t.foldl step s).done.length = s.done.length := by
  induction t generalizing s with
  | nil => rfl
  | cons c t ih =>
    obtain ⟨hc, hrest⟩ := List.cons.inj ht
    rw [List.foldl_cons, ih hrest, length_done_step hc]

theorem length_done_settle (s : Splitter) : s.settle.done.length = s.done.length := by
  unfold settle
  split
  · rfl
  · exact length_done_endComment s _
  · exact length_done_endComment s _
  · rfl

/-- Nothing in the lexis of an entry ends it. -/
theorem cuts_of_accepts (ht : Lexis.entry.accepts s.spot t = true) : s.cuts t = uncut t := by
  induction t generalizing s with
  | nil => rfl
  | cons c t ih =>
    obtain ⟨hc, hrest⟩ := Lexis.accepts_cons.1 ht
    have hnot : s.cutsAt c = false := by
      rw [Bool.eq_false_iff]
      intro hcut
      obtain ⟨rfl, hclosed⟩ : c = ',' ∧ s.spot.isClosed = true := by simpa [cutsAt] using hcut
      rcases Spot.isClosed_iff.1 hclosed with hs | hs
      · rw [hs] at hc
        cases hc
      · rw [hs] at hc
        cases hc
    rw [cuts, hnot, ih (by rwa [step_spot])]
    rfl

end Splitter

/-- A text that is closed in the lexis of an entry is read as one. -/
theorem splitEntries_of_closes {t : Text} (h : Lexis.entry.closes t = true) :
    splitEntries t = whole t := by
  have hstart : Splitter.Ready {} [] := ⟨rfl, rfl, rfl, rfl⟩
  have hread := hstart.read h
  unfold splitEntries scanEntries whole
  rw [hread.settle_eq]
  rfl

theorem splitEntries_blank {t : Text} (h : isBlankText t = true) : splitEntries t = [] := by
  have hcloses : Lexis.entry.closes t = true := by
    rw [Lexis.closes_iff, Spot.after_blanks h]
    exact ⟨Lexis.entry_isOpen.accepts trivial rfl (isNeutral_of_isBlankText h), rfl⟩
  rw [splitEntries_of_closes hcloses, whole, Text.trim_eq_nil_iff.2 h]
  rfl

/-- A text that is not cut holds one entry at most, and a blank text none. -/
theorem length_splitEntries_le {t : Text} (h : ({} : Splitter).cuts t = uncut t) :
    (splitEntries t).length ≤ (whole t).length := by
  cases hblank : isBlankText t with
  | true =>
    rw [splitEntries_blank hblank]
    exact Nat.zero_le _
  | false =>
    have hone : (whole t).length = 1 := by
      have hsome : (Text.trim t).isEmpty = false := by
        rw [Bool.eq_false_iff, ne_eq, List.isEmpty_iff, Text.trim_eq_nil_iff, hblank]
        simp
      simp [whole, hsome]
    have hnone : (scanEntries t).settle.done.length = 0 := by
      rw [Splitter.length_done_settle]
      exact Splitter.length_done_foldl h
    rw [hone]
    unfold splitEntries Splitter.finishEntry
    dsimp only
    split_ifs
    · omega
    · rw [List.length_append, hnone]
      rfl

/-! ## Parts with commas between them -/

section Parts

variable {es : List Text}

/-- Parts that start an entry and leave nothing open are split one by one. -/
theorem Splitter.done_intercalate (hne : es ≠ []) (hstart : ∀ e ∈ es, startsEntry e = true)
    (hclosed : ∀ e ∈ es.dropLast, (scanEntries e).spot.isClosed = true) (front : List RawEntry)
    (broken : Bool) :
    (([','].intercalate es).foldl step
        (({} : Splitter).ahead front broken)).settle.finishEntry.done =
      front ++ es.flatMap splitEntries := by
  induction es generalizing front broken with
  | nil => exact absurd rfl hne
  | cons e es ih =>
    have he := hstart e List.mem_cons_self
    cases es with
    | nil =>
      rw [List.intercalate_singleton, List.flatMap_cons, List.flatMap_nil, List.append_nil]
      exact done_of_startsEntry front broken he
    | cons x es =>
      have hspot : (e.foldl step (({} : Splitter).ahead front broken)).spot.isClosed = true := by
        rw [foldl_spot]
        have hend := hclosed e (by simp)
        rwa [scanEntries, foldl_spot] at hend
      have hrest := ih (List.cons_ne_nil x es) (fun y hy => hstart y (List.mem_cons_of_mem e hy))
        (fun y hy => hclosed y (List.mem_cons_of_mem e hy)) (front ++ splitEntries e) false
      rw [List.intercalate_cons_cons, List.append_assoc, List.foldl_append, List.singleton_append,
        List.foldl_cons, step_comma hspot, done_of_startsEntry front broken he, List.flatMap_cons,
        ← List.append_assoc, hrest]

theorem splitEntries_intercalate (hne : es ≠ []) (hstart : ∀ e ∈ es, startsEntry e = true)
    (hclosed : ∀ e ∈ es.dropLast, (scanEntries e).spot.isClosed = true) :
    splitEntries ([','].intercalate es) = es.flatMap splitEntries := by
  have hdone := Splitter.done_intercalate hne hstart hclosed [] true
  rwa [List.nil_append] at hdone

/-- A comma cuts behind a text that is not cut, and the rest is cut as by itself, exactly when
nothing is open at the comma. -/
theorem cuts_comma_iff (e t : Text) (marks : List Bool) :
    ({} : Splitter).cuts (e ++ ',' :: t) = uncut e ++ true :: marks ↔
      ({} : Splitter).cuts e = uncut e ∧ (scanEntries e).spot.isClosed = true ∧
        ({} : Splitter).cuts t = marks := by
  have hcut : (scanEntries e).cutsAt ',' = (scanEntries e).spot.isClosed := by
    simp [Splitter.cutsAt]
  have hbehind : (scanEntries e).spot.isClosed = true →
      ((scanEntries e).step ',').cuts t = ({} : Splitter).cuts t := by
    intro hclosed
    refine Splitter.cuts_congr ?_ t
    rw [Splitter.step_comma hclosed]
    rfl
  have hsplit : ({} : Splitter).cuts (e ++ ',' :: t) = ({} : Splitter).cuts e ++
      (scanEntries e).spot.isClosed :: ((scanEntries e).step ',').cuts t := by
    rw [Splitter.cuts_append, Splitter.cuts, ← hcut]
    rfl
  rw [hsplit]
  constructor
  · intro h
    obtain ⟨he, hrest⟩ := List.append_inj h (by simp [uncut])
    obtain ⟨hclosed, ht⟩ := List.cons.inj hrest
    exact ⟨he, hclosed, (hbehind hclosed).symm.trans ht⟩
  · rintro ⟨he, hclosed, rfl⟩
    rw [he, hbehind hclosed, hclosed]

/-- The commas between the parts are where it cuts, exactly when no part is cut and each leaves
nothing open for the next. -/
theorem cuts_intercalate (hne : es ≠ []) :
    ({} : Splitter).cuts ([','].intercalate es) = [true].intercalate (es.map uncut) ↔
      (∀ e ∈ es, ({} : Splitter).cuts e = uncut e) ∧
        ∀ e ∈ es.dropLast, (scanEntries e).spot.isClosed = true := by
  induction es with
  | nil => exact absurd rfl hne
  | cons e es ih =>
    cases es with
    | nil => simp
    | cons x es =>
      rw [List.intercalate_cons_cons, List.map_cons, List.map_cons, List.intercalate_cons_cons,
        List.append_assoc, List.append_assoc, List.singleton_append, List.singleton_append,
        cuts_comma_iff, ← List.map_cons, ih (List.cons_ne_nil x es), List.dropLast_cons_cons,
        List.forall_mem_cons (a := e), List.forall_mem_cons (a := e)]
      tauto

end Parts

theorem eq_of_flatMap_eq {α β : Type} {f g : α → List β} {l : List α}
    (hle : ∀ x ∈ l, (f x).length ≤ (g x).length) (h : l.flatMap f = l.flatMap g) :
    ∀ x ∈ l, f x = g x := by
  induction l with
  | nil => simp
  | cons x l ih =>
    rw [List.forall_mem_cons] at hle
    rw [List.flatMap_cons, List.flatMap_cons] at h
    have hrest : (l.flatMap f).length ≤ (l.flatMap g).length := by
      rw [List.length_flatMap, List.length_flatMap]
      exact List.sum_le_sum hle.2
    have hlen := congrArg List.length h
    rw [List.length_append, List.length_append] at hlen
    obtain ⟨hx, hl⟩ := List.append_inj h (by omega)
    exact List.forall_mem_cons.2 ⟨hx, ih hle.2 hl⟩

/-! ## Marked texts -/

/-- What stands between the marked characters. -/
def slices (ps : List (Char × Bool)) : List Text := (ps.splitOnP (·.2)).map (·.map Prod.fst)

/-- The splitter cuts the text at its marks, and the entries are what stands between them,
without the blanks around it. -/
structure CutAt (t : Text) (marks : List Bool) : Prop where
  cuts : ({} : Splitter).cuts t = marks
  entries : splitEntries t = (slices (t.zip marks)).flatMap whole

/-- The text is read as one entry. -/
structure ReadWhole (t : Text) : Prop where
  cuts : ({} : Splitter).cuts t = uncut t
  entries : splitEntries t = whole t

theorem readWhole_of_closes {t : Text} (h : Lexis.entry.closes t = true) : ReadWhole t :=
  ⟨Splitter.cuts_of_accepts (Lexis.closes_iff.1 h).1, splitEntries_of_closes h⟩

section Slices

variable {ps front : List (Char × Bool)}

theorem slices_ne_nil (ps : List (Char × Bool)) : slices ps ≠ [] := by
  simp [slices, List.splitOnP_ne_nil]

@[simp]
theorem slices_nil : slices [] = [[]] := by
  simp [slices]

theorem slices_marked (c : Char) (ps : List (Char × Bool)) :
    slices ((c, true) :: ps) = [] :: slices ps := by
  simp [slices, List.splitOnP_cons_eq_if_modifyHead]

theorem slices_cons (c : Char) (ps : List (Char × Bool)) :
    slices ((c, false) :: ps) = (slices ps).modifyHead (c :: ·) := by
  simp only [slices, List.splitOnP_cons_eq_if_modifyHead, Bool.false_eq_true, if_false]
  cases ps.splitOnP (·.2) <;> rfl

theorem slices_append (h : ∀ p ∈ front, p.2 = false) (ps : List (Char × Bool)) :
    slices (front ++ ps) = (slices ps).modifyHead (front.map Prod.fst ++ ·) := by
  induction front with
  | nil => cases hs : slices ps <;> simp [hs]
  | cons p front ih =>
    obtain ⟨c, marked⟩ := p
    rw [List.forall_mem_cons] at h
    obtain rfl : marked = false := h.1
    rw [List.cons_append, slices_cons, ih h.2, List.modifyHead_modifyHead]
    rfl

/-- The first slice is what the text starts with. -/
theorem prefix_of_head_slices {e : Text}
    (he : (slices ps).head? = some e) : e <+: ps.map Prod.fst := by
  induction ps generalizing e with
  | nil =>
    rw [slices_nil] at he
    obtain rfl : [] = e := Option.some.inj he
    exact List.nil_prefix
  | cons p ps ih =>
    obtain ⟨c, marked⟩ := p
    cases marked with
    | true =>
      rw [slices_marked] at he
      obtain rfl : [] = e := Option.some.inj he
      exact List.nil_prefix
    | false =>
      rw [slices_cons, List.head?_modifyHead] at he
      obtain ⟨e', he', rfl⟩ := Option.map_eq_some_iff.1 he
      exact List.cons_prefix_cons.2 ⟨rfl, ih he'⟩

/-- A text is its slices with the marked characters between them. -/
theorem intercalate_slices (h : ∀ p ∈ ps, p.2 = true → p.1 = ',') :
    [','].intercalate (slices ps) = ps.map Prod.fst ∧
      [true].intercalate ((slices ps).map uncut) = ps.map Prod.snd := by
  induction ps with
  | nil => simp [uncut]
  | cons p ps ih =>
    rw [List.forall_mem_cons] at h
    obtain ⟨htext, hmarks⟩ := ih h.2
    obtain ⟨e, es, hes⟩ := List.exists_cons_of_ne_nil (slices_ne_nil ps)
    obtain ⟨c, marked⟩ := p
    cases marked with
    | true =>
      obtain rfl : c = ',' := h.1 rfl
      rw [slices_marked, List.map_cons, List.map_cons, List.map_cons, ← htext, ← hmarks, hes]
      simp [List.intercalate_cons_cons, uncut]
    | false =>
      rw [slices_cons, List.map_cons, List.map_cons, ← htext, ← hmarks, hes, List.modifyHead_cons]
      cases es <;> simp [List.intercalate_cons_cons, uncut]

/-- A text is cut where it is marked exactly when each slice by itself is read as one entry and
leaves nothing open for the next. -/
theorem cutAt_iff (h : ∀ p ∈ ps, p.2 = true → p.1 = ',')
    (hstart : ∀ e ∈ slices ps, startsEntry e = true) :
    CutAt (ps.map Prod.fst) (ps.map Prod.snd) ↔ (∀ e ∈ slices ps, ReadWhole e) ∧
      ∀ e ∈ (slices ps).dropLast, (scanEntries e).spot.isClosed = true := by
  obtain ⟨htext, hmarks⟩ := intercalate_slices h
  have hne := slices_ne_nil ps
  have hzip : (ps.map Prod.fst).zip (ps.map Prod.snd) = ps :=
    (List.zip_of_prod rfl rfl).symm
  constructor
  · rintro ⟨hcuts, hentries⟩
    rw [hzip, ← htext] at hentries
    rw [← htext, ← hmarks, cuts_intercalate hne] at hcuts
    obtain ⟨hcuts, hclosed⟩ := hcuts
    rw [splitEntries_intercalate hne hstart hclosed] at hentries
    have heach := eq_of_flatMap_eq (fun e he => length_splitEntries_le (hcuts e he)) hentries
    exact ⟨fun e he => ⟨hcuts e he, heach e he⟩, hclosed⟩
  · rintro ⟨heach, hclosed⟩
    constructor
    · rw [← htext, ← hmarks, cuts_intercalate hne]
      exact ⟨fun e he => (heach e he).cuts, hclosed⟩
    · rw [hzip, ← htext, splitEntries_intercalate hne hstart hclosed]
      exact List.flatMap_congr fun e he => (heach e he).entries

end Slices

end Uplift.State
