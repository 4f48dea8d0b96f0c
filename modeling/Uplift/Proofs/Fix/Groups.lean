-- Grouping by file. Every file has one group, which holds all of its items in
-- order and nothing else. So the group of a file can be made from the items of
-- that file alone, and the groups together hold every item once.
import Mathlib.Data.List.Induction
import Mathlib.Data.List.Pairwise
import Uplift.Proofs.Fix.Batch

namespace Uplift

section

variable {α : Type} (file : α → String) (items : List α)

/-- The groups of a file are the groups of its items. -/
theorem groupByFile_filter (here : String) :
    (groupByFile file items).filter (fun g => Path.same here g.1) =
      groupByFile file (items.filter fun a => Path.same here (file a)) := by
  rw [groupByFile_eq_sortedOut, groupByFile_eq_sortedOut]
  exact sortedOut_filter items here

/-- A group is named as one of the items names its file. -/
theorem exists_of_mem_names {p : String} (h : p ∈ (groupByFile file items).map (·.1)) :
    ∃ a ∈ items, file a = p := by
  rw [groupByFile_eq_sortedOut, map_fst_sortedOut] at h
  exact List.mem_map.1 (mem_of_mem_firstSeen h)

end

end Uplift
