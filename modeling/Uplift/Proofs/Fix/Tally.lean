-- The counts of one file. A fix that finds its method adds an edit and counts as
-- applied, and every other fix counts as stale. So the counts of a revision add
-- up to its fixes, and the file has a new text exactly when a fix was applied.
import Uplift.Proofs.Fix.Revision

namespace Uplift

/-- A change that was not refused was not refused in its first part. -/
theorem Revise.bind_eq_ok {α β : Type} {x : Revise.Revising α} {f : α → Revise.Revising β} {b : β}
    (h : (x >>= f) = some (.ok b)) : ∃ a, x = some (.ok a) ∧ f a = some (.ok b) := by
  cases x with
  | none => cases h
  | some r =>
    cases r with
    | error e => cases h
    | ok a => exact ⟨a, rfl, h⟩

namespace Fix

/-- The fix finds a method to change. -/
def changes (tree : Snapshot) (fix : Fix) : Bool := (target? tree fix).isSome

/-! ## One fix -/

/-- A fix adds one edit and counts as applied, or counts as stale. -/
theorem addEdits_counts {tree : Snapshot} {work work' : FileEdits} {fix : Fix}
    (hkind : fix.kind ≠ .manualReview) (h : addEdits tree work fix = some work') :
    (changes tree fix = false ∧ work' = { work with stale := work.stale + 1 }) ∨
      changes tree fix = true ∧ ∃ e states,
        work' = ⟨work.edits ++ [e], states, work.applied + 1, work.stale⟩ := by
  unfold addEdits at h
  cases hl : locate? tree fix with
  | none =>
    rw [hl] at h
    exact Or.inl ⟨by simp [changes, target?, hl], (Option.some.inj h).symm⟩
  | some p =>
    obtain ⟨c, m⟩ := p
    simp only [hl] at h
    cases hk : fix.kind with
    | remove =>
      simp only [hk, Option.bind_eq_bind, Option.bind_eq_some_iff, Option.some.injEq] at h
      obtain ⟨e, _, rfl⟩ := h
      exact Or.inr ⟨by simp [changes, target?, hl, hk], e, _, rfl⟩
    | rename =>
      simp only [hk, Option.some.injEq] at h
      subst h
      exact Or.inr ⟨by simp [changes, target?, hl, hk], _, _, rfl⟩
    | moveToConstructor =>
      simp only [hk] at h
      cases hx : State.extract? tree m with
      | none =>
        rw [hx] at h
        exact Or.inl ⟨by simp [changes, target?, hl, hk, hx], (Option.some.inj h).symm⟩
      | some props =>
        simp only [hx, Option.bind_eq_bind, Option.bind_eq_some_iff, Option.some.injEq] at h
        obtain ⟨states, _, e, _, rfl⟩ := h
        exact Or.inr ⟨by simp [changes, target?, hl, hk, hx], e, states, rfl⟩
    | manualReview => exact absurd hk hkind

/-! ## All fixes of a file -/

/-- The counts that `fixes` leave behind. -/
structure Counted (tree : Snapshot) (fixes : List Fix) (work : FileEdits) : Prop where
  applied : work.applied = (fixes.filter (changes tree)).length
  stale : work.stale = (fixes.filter fun f => !changes tree f).length
  edits : work.edits.length = work.applied
  states : work.applied = 0 → work.states = []

theorem Counted.step {tree : Snapshot} {fixes : List Fix} {work work' : FileEdits} {fix : Fix}
    (hc : Counted tree fixes work) (hkind : fix.kind ≠ .manualReview)
    (h : addEdits tree work fix = some work') : Counted tree (fixes ++ [fix]) work' := by
  obtain ⟨happlied, hstale, hedits, hstates⟩ := hc
  rcases addEdits_counts hkind h with ⟨ht, rfl⟩ | ⟨ht, e, states, rfl⟩
  · exact ⟨by simp [happlied, ht], by simp [hstale, ht], hedits, hstates⟩
  · exact ⟨by simp [happlied, ht], by simp [hstale, ht], by simp [hedits], by simp⟩

end Fix

end Uplift
