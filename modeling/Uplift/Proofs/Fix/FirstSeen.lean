-- Sorting items out by a key. The plain way lists the keys where they appear
-- first and filters the items once for each of them. The groups by file are
-- made in one pass instead, with a table that says where the group of a file
-- stands. The table keeps pointing at the right groups, so both ways agree.
import Mathlib.Data.List.Induction
import Mathlib.Data.List.Perm.Basic
import Uplift.Fix.Basic

namespace Uplift

/-! ## Keys in order of appearance -/

section

variable {α κ ι : Type} [DecidableEq ι] (ident : κ → ι)

/-- The keys, each where it appears first. Keys of one identity count as one key. -/
def firstSeen (keys : List κ) : List κ := keys.eraseDupsBy fun a b => ident a = ident b

theorem firstSeen_cons (k : κ) (keys : List κ) :
    firstSeen ident (k :: keys) =
      k :: firstSeen ident (keys.filter fun l => ident l ≠ ident k) := by
  unfold firstSeen
  rw [List.eraseDupsBy_cons]
  simp

/-- What holds of all keys follows from the keys that differ from the first. -/
@[elab_as_elim]
theorem firstSeen_induction {motive : List κ → Prop} (keys : List κ) (nil : motive [])
    (cons : ∀ k keys, motive (keys.filter fun l => ident l ≠ ident k) → motive (k :: keys)) :
    motive keys := by
  cases keys with
  | nil => exact nil
  | cons k keys => exact cons k keys (firstSeen_induction _ nil cons)
termination_by keys.length
decreasing_by
  have := List.length_filter_le (fun l => decide (ident l ≠ ident k)) keys
  rw [List.length_cons]
  omega

variable {ident}

theorem mem_of_mem_firstSeen {k : κ} {keys : List κ} (h : k ∈ firstSeen ident keys) :
    k ∈ keys := by
  induction keys using firstSeen_induction ident with
  | nil => exact h
  | cons l keys ih =>
    rw [firstSeen_cons] at h
    rcases List.mem_cons.1 h with rfl | h
    · exact List.mem_cons_self
    · exact List.mem_cons_of_mem _ (List.mem_of_mem_filter (ih h))

theorem exists_mem_firstSeen {k : κ} {keys : List κ} (h : k ∈ keys) :
    ∃ l ∈ firstSeen ident keys, ident l = ident k := by
  induction keys using firstSeen_induction ident with
  | nil => cases h
  | cons l keys ih =>
    rw [firstSeen_cons]
    by_cases hk : ident k = ident l
    · exact ⟨l, List.mem_cons_self, hk.symm⟩
    · have hrest : k ∈ keys := by
        rcases List.mem_cons.1 h with rfl | h
        · exact absurd rfl hk
        · exact h
      obtain ⟨m, hm, he⟩ := ih (List.mem_filter.2 ⟨hrest, by simpa using hk⟩)
      exact ⟨m, List.mem_cons_of_mem _ hm, he⟩

variable (ident) in
/-- No two of the keys are one. -/
theorem firstSeen_apart (keys : List κ) :
    (firstSeen ident keys).Pairwise fun k l => ident k ≠ ident l := by
  induction keys using firstSeen_induction ident with
  | nil => exact List.Pairwise.nil
  | cons k keys ih =>
    rw [firstSeen_cons, List.pairwise_cons]
    refine ⟨?_, ih⟩
    intro l hl
    have hne := (List.mem_filter.1 (mem_of_mem_firstSeen hl)).2
    exact Ne.symm (of_decide_eq_true hne)

/-- A key that comes last is listed only if it is new. -/
theorem firstSeen_concat (keys : List κ) (k : κ) :
    firstSeen ident (keys ++ [k]) =
      if ∃ l ∈ keys, ident l = ident k then firstSeen ident keys
      else firstSeen ident keys ++ [k] := by
  induction keys using firstSeen_induction ident with
  | nil => simp [firstSeen, List.eraseDupsBy_cons]
  | cons l keys ih =>
    rw [List.cons_append, firstSeen_cons, firstSeen_cons, List.filter_append]
    by_cases hk : ident k = ident l
    · simp [hk]
    · have hlone : [k].filter (fun m => ident m ≠ ident l) = [k] := by simp [hk]
      have hiff : (∃ m ∈ keys.filter (fun m => ident m ≠ ident l), ident m = ident k) ↔
          ∃ m ∈ l :: keys, ident m = ident k := by
        constructor
        · rintro ⟨m, hm, he⟩
          exact ⟨m, List.mem_cons_of_mem _ (List.mem_of_mem_filter hm), he⟩
        · rintro ⟨m, hm, he⟩
          rcases List.mem_cons.1 hm with rfl | hm
          · exact absurd he.symm hk
          · exact ⟨m, List.mem_filter.2 ⟨hm, by simp [he, hk]⟩, he⟩
      rw [hlone, ih]
      simp only [hiff]
      split <;> rfl

end

/-! ## Items by key -/

section

variable {α κ ι : Type} [DecidableEq ι] (ident : κ → ι) (key : α → κ)

/-- The items whose key has the identity of `k`, in order. -/
def itemsOf (k : κ) (items : List α) : List α := items.filter fun a => ident k = ident (key a)

/-- The keys in order of first appearance, each with its items. -/
def sortedOut (items : List α) : List (κ × List α) :=
  (firstSeen ident (items.map key)).map fun k => (k, itemsOf ident key k items)

variable {ident key}

theorem map_fst_sortedOut (items : List α) :
    (sortedOut ident key items).map (·.1) = firstSeen ident (items.map key) := by
  simp [sortedOut, Function.comp_def]

/-- The first item opens the first group, and the items of other keys make the other groups. -/
theorem sortedOut_cons (a : α) (items : List α) :
    sortedOut ident key (a :: items) =
      (key a, a :: itemsOf ident key (key a) items) ::
        sortedOut ident key (items.filter fun b => ident (key b) ≠ ident (key a)) := by
  unfold sortedOut
  rw [List.map_cons, firstSeen_cons, List.map_cons, List.filter_map]
  refine congrArg₂ List.cons (by simp [itemsOf]) ?_
  apply List.map_congr_left
  intro k hk
  have hmem := mem_of_mem_firstSeen hk
  obtain ⟨b, hb, rfl⟩ := List.mem_map.1 hmem
  have hne : ident (key b) ≠ ident (key a) := of_decide_eq_true (List.mem_filter.1 hb).2
  unfold itemsOf
  rw [List.filter_cons_of_neg (by simpa using hne), List.filter_filter]
  refine congrArg (Prod.mk (key b)) (List.filter_congr ?_)
  intro c _
  by_cases hc : ident (key b) = ident (key c)
  · simp [← hc, hne]
  · simp [hc]

/-- One more item goes to the end of its group, or opens a group behind the others. -/
theorem sortedOut_concat (items : List α) (a : α) :
    sortedOut ident key (items ++ [a]) =
      if ∃ b ∈ items, ident (key b) = ident (key a) then
        (sortedOut ident key items).map fun g =>
          if ident g.1 = ident (key a) then (g.1, g.2 ++ [a]) else g
      else sortedOut ident key items ++ [(key a, [a])] := by
  have hitems : ∀ k, itemsOf ident key k (items ++ [a]) =
      itemsOf ident key k items ++ if ident k = ident (key a) then [a] else [] := by
    intro k
    unfold itemsOf
    rw [List.filter_append]
    by_cases hk : ident k = ident (key a) <;> simp [hk]
  have hseen : (∃ l ∈ items.map key, ident l = ident (key a)) ↔
      ∃ b ∈ items, ident (key b) = ident (key a) := by
    simp
  unfold sortedOut
  rw [List.map_append, List.map_singleton, firstSeen_concat]
  simp only [hseen, hitems]
  split
  · rw [List.map_map]
    apply List.map_congr_left
    intro k _
    by_cases hk : ident k = ident (key a) <;> simp [hk]
  · rename_i hnew
    rw [List.map_append]
    have hnone : itemsOf ident key (key a) items = [] := by
      unfold itemsOf
      rw [List.filter_eq_nil_iff]
      intro b hb he
      exact hnew ⟨b, hb, (of_decide_eq_true he).symm⟩
    refine congrArg₂ (· ++ ·) (List.map_congr_left ?_) (by simp [hnone])
    intro k hk
    obtain ⟨b, hb, rfl⟩ := List.mem_map.1 (mem_of_mem_firstSeen hk)
    have hne : ident (key b) ≠ ident (key a) := fun he => hnew ⟨b, hb, he⟩
    simp [hne]

/-- A key has a group exactly when it has an item. -/
theorem exists_mem_sortedOut {items : List α} {i : ι} :
    (∃ g ∈ sortedOut ident key items, ident g.1 = i) ↔ ∃ a ∈ items, ident (key a) = i := by
  have hkeys : (∃ g ∈ sortedOut ident key items, ident g.1 = i) ↔
      ∃ k ∈ firstSeen ident (items.map key), ident k = i := by
    rw [← map_fst_sortedOut]
    simp
  rw [hkeys]
  constructor
  · rintro ⟨k, hk, rfl⟩
    obtain ⟨a, ha, rfl⟩ := List.mem_map.1 (mem_of_mem_firstSeen hk)
    exact ⟨a, ha, rfl⟩
  · rintro ⟨a, ha, rfl⟩
    exact exists_mem_firstSeen (List.mem_map_of_mem ha)

/-- The group of a key can be made from the items of that key alone. -/
theorem sortedOut_filter (items : List α) (here : κ) :
    (sortedOut ident key items).filter (fun g => ident here = ident g.1) =
      sortedOut ident key (itemsOf ident key here items) := by
  induction items using firstSeen_induction (fun a => ident (key a)) with
  | nil => rfl
  | cons a items ih =>
    have hrest : itemsOf ident key here (items.filter fun b => ident (key b) ≠ ident (key a)) =
        (itemsOf ident key here items).filter fun b => ident (key b) ≠ ident (key a) :=
      List.filter_comm ..
    rw [sortedOut_cons]
    by_cases h : ident here = ident (key a)
    · have hown : itemsOf ident key here (a :: items) = a :: itemsOf ident key here items := by
        simp [itemsOf, h]
      have hsame : itemsOf ident key (key a) (itemsOf ident key here items) =
          itemsOf ident key (key a) items := by
        simp [itemsOf, h]
      rw [List.filter_cons_of_pos (by simpa using h), hown, sortedOut_cons, hsame, ih, hrest]
    · have hother : itemsOf ident key here (a :: items) = itemsOf ident key here items := by
        simp [itemsOf, h]
      have hall : (itemsOf ident key here items).filter
          (fun b => ident (key b) ≠ ident (key a)) = itemsOf ident key here items := by
        rw [List.filter_eq_self]
        intro b hb
        have he : ident here = ident (key b) := of_decide_eq_true (List.mem_filter.1 hb).2
        simpa [← he] using h
      rw [List.filter_cons_of_neg (by simpa using h), hother, ih, hrest, hall]

variable (ident key) in
/-- Every item is in one of the groups, once. -/
theorem sortedOut_perm (items : List α) :
    ((sortedOut ident key items).flatMap (·.2)).Perm items := by
  induction items using firstSeen_induction (fun a => ident (key a)) with
  | nil => exact List.Perm.refl _
  | cons a items ih =>
    rw [sortedOut_cons, List.flatMap_cons, List.cons_append]
    refine List.Perm.cons a ?_
    have hsplit := List.filter_append_perm (fun b => decide (ident (key a) = ident (key b))) items
    have hrest : (items.filter fun b => ident (key b) ≠ ident (key a)) =
        items.filter fun b => !decide (ident (key a) = ident (key b)) := by
      simp [eq_comm]
    rw [← hrest] at hsplit
    exact (ih.append_left _).trans hsplit

end

/-! ## The table of slots -/

namespace FileGroups

variable {α : Type} {g : FileGroups α} {path : String} {a : α}

/-- The table has the files that have a group, and points at their groups. -/
def Sound (g : FileGroups α) : Prop :=
  ∀ steps slot, g.slots.lookup steps = some slot ↔
    ∃ group, g.groups[slot]? = some group ∧ Path.steps group.1 = steps

theorem sound_empty : ({} : FileGroups α).Sound := by
  intro steps slot
  simp

theorem Sound.slot_unique (h : g.Sound) {i j : Nat} {p q : String × List α}
    (hi : g.groups[i]? = some p) (hj : g.groups[j]? = some q)
    (hsame : Path.steps p.1 = Path.steps q.1) : i = j := by
  have hp := (h (Path.steps q.1) i).2 ⟨p, hi, hsame⟩
  have hq := (h (Path.steps q.1) j).2 ⟨q, hj, rfl⟩
  exact Option.some.inj (hp.symm.trans hq)

/-- A slot that is looked up is the slot of the file, and the table stays sound. -/
theorem Sound.slotFor (h : g.Sound) (path : String) :
    (g.slotFor path).2.Sound ∧
      ∃ group, (g.slotFor path).2.groups[(g.slotFor path).1]? = some group ∧
        Path.steps group.1 = Path.steps path := by
  unfold FileGroups.slotFor
  dsimp only
  cases hslot : g.slots.lookup (Path.steps path) with
  | some slot => exact ⟨h, (h _ _).1 hslot⟩
  | none =>
    refine ⟨?_, (path, []), by simp, rfl⟩
    intro steps slot
    simp only [List.lookup_cons, Array.getElem?_push]
    by_cases hsteps : steps = Path.steps path
    · subst hsteps
      by_cases hlast : slot = g.groups.size
      · simp [hlast]
      · have hno : ¬ ∃ group, g.groups[slot]? = some group ∧
            Path.steps group.1 = Path.steps path := by
          rw [← h, hslot]
          exact nofun
        simp [hlast, Ne.symm hlast, hno]
    · rw [beq_eq_false_iff_ne.2 hsteps]
      by_cases hlast : slot = g.groups.size
      · subst hlast
        simp only [h steps]
        simp [Ne.symm hsteps]
      · simp only [h steps, hlast, if_false]

theorem add_groups (g : FileGroups α) (path : String) (a : α) (slot : Nat) :
    (g.add path a).groups[slot]? =
      if (g.slotFor path).1 = slot then
        (g.slotFor path).2.groups[slot]?.map fun p => (p.1, p.2 ++ [a])
      else (g.slotFor path).2.groups[slot]? := by
  unfold add
  simp [Array.getElem?_modify]

theorem Sound.add (h : g.Sound) (path : String) (a : α) : (g.add path a).Sound := by
  intro steps slot
  rw [show (g.add path a).slots = (g.slotFor path).2.slots from rfl, (h.slotFor path).1 steps slot,
    add_groups]
  split
  · cases (g.slotFor path).2.groups[slot]? <;> simp
  · rfl

/-- Adding changes the groups of the file, of which there is one, and no others. -/
theorem Sound.toList_add (h : g.Sound) (path : String) (a : α) :
    (g.add path a).groups.toList = (g.slotFor path).2.groups.toList.map fun p =>
      if Path.steps p.1 = Path.steps path then (p.1, p.2 ++ [a]) else p := by
  obtain ⟨hsound, own, hown, hsteps⟩ := h.slotFor path
  apply List.ext_getElem?
  intro slot
  rw [Array.getElem?_toList, add_groups, List.getElem?_map, Array.getElem?_toList]
  cases hp : (g.slotFor path).2.groups[slot]? with
  | none => simp
  | some p =>
    have hiff : Path.steps p.1 = Path.steps path ↔ (g.slotFor path).1 = slot := by
      constructor
      · intro he
        exact hsound.slot_unique hown hp (hsteps.trans he.symm)
      · rintro rfl
        rw [hown] at hp
        rw [← Option.some.inj hp, hsteps]
    by_cases he : (g.slotFor path).1 = slot
    · simp [he, hiff.2 he]
    · simp [he, mt hiff.1 he]

/-- One more item takes the groups one step on. -/
theorem Sound.add_sortedOut (h : g.Sound) {file : α → String} {items : List α}
    (hg : g.groups.toList = sortedOut Path.steps file items) (a : α) :
    (g.add (file a) a).groups.toList = sortedOut Path.steps file (items ++ [a]) := by
  have hseen : (∃ b ∈ items, Path.steps (file b) = Path.steps (file a)) ↔
      ∃ slot, g.slots.lookup (Path.steps (file a)) = some slot := by
    rw [← exists_mem_sortedOut, ← hg]
    simp only [h (Path.steps (file a)), List.mem_iff_getElem?, Array.getElem?_toList]
    constructor
    · rintro ⟨group, ⟨slot, hslot⟩, hsteps⟩
      exact ⟨slot, group, hslot, hsteps⟩
    · rintro ⟨slot, group, hslot, hsteps⟩
      exact ⟨group, ⟨slot, hslot⟩, hsteps⟩
  rw [h.toList_add, sortedOut_concat]
  unfold FileGroups.slotFor
  dsimp only
  cases hslot : g.slots.lookup (Path.steps (file a)) with
  | some slot => rw [if_pos (hseen.2 ⟨slot, hslot⟩), hg]
  | none =>
    have hold : ¬ ∃ b ∈ items, Path.steps (file b) = Path.steps (file a) := by
      rw [hseen, hslot]
      exact nofun
    have hother : ∀ p ∈ sortedOut Path.steps file items,
        (if Path.steps p.1 = Path.steps (file a) then (p.1, p.2 ++ [a]) else p) = p := by
      intro p hp
      exact if_neg fun he => hold (exists_mem_sortedOut.1 ⟨p, hp, he⟩)
    rw [if_neg hold, Array.toList_push, hg, List.map_append, List.map_congr_left hother]
    simp

end FileGroups

/-- The groups by file are the items sorted out by the file that they name. -/
theorem groupByFile_eq_sortedOut {α : Type} (file : α → String) (items : List α) :
    groupByFile file items = sortedOut Path.steps file items := by
  have hrun : ∀ items : List α,
      (items.foldl (fun g a => g.add (file a) a) ({} : FileGroups α)).Sound ∧
      (items.foldl (fun g a => g.add (file a) a) ({} : FileGroups α)).groups.toList =
        sortedOut Path.steps file items := by
    intro items
    induction items using List.reverseRecOn with
    | nil => exact ⟨FileGroups.sound_empty, rfl⟩
    | append_singleton items a ih =>
      rw [List.foldl_append, List.foldl_cons, List.foldl_nil]
      exact ⟨ih.1.add (file a) a, ih.1.add_sortedOut ih.2 a⟩
  exact (hrun items).2

end Uplift
