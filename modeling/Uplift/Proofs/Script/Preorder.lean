-- The walk over a syntax tree. A node of a tree has a place: which child to take
-- at each step down from the root. In preorder a node comes before the nodes
-- below it and before those right of it, which is the order of places as words.
-- The walk of a cursor visits every place once, in that order.
import Mathlib.Data.List.Forall2
import Mathlib.Data.List.Pairwise
import Uplift.Script.Cursor

namespace Uplift.Script

/-! ## Places -/

/-- The way down to a node: the index of the child to take at each step. -/
abbrev Tree.Place := List Nat

/-- What holds of a tree if it holds of its children holds of all trees. -/
@[elab_as_elim]
theorem Tree.child_induction {motive : Tree → Prop}
    (node : ∀ k n r s cs, (∀ c ∈ cs, motive c) → motive (.node k n r s cs)) (t : Tree) :
    motive t := by
  obtain ⟨k, n, r, s, cs⟩ := t
  exact node k n r s cs fun c _ => Tree.child_induction node c

namespace Tree

/-- The node at a place. -/
def at? (t : Tree) : Tree.Place → Option Tree
  | [] => some t
  | i :: place => t.children[i]?.bind (·.at? place)

/-- The node right above a place. -/
def above? (t : Tree) (place : Tree.Place) : Option Tree :=
  if place = [] then none else t.at? place.dropLast

@[simp]
theorem at?_nil (t : Tree) : t.at? [] = some t := rfl

theorem at?_cons {t u : Tree} {i : Nat} {place : Tree.Place} :
    t.at? (i :: place) = some u ↔ ∃ c, t.children[i]? = some c ∧ c.at? place = some u := by
  simp [at?, Option.bind_eq_some_iff]

end Tree

mutual

/-- Every node of a tree in preorder, each with its parent. -/
def Tree.preorder (parent : Option Tree) : Tree → List (Option Tree × Tree)
  | .node k n r s cs => (parent, .node k n r s cs) :: preorderAll (.node k n r s cs) cs

/-- The same for the children of a node. -/
def preorderAll (parent : Tree) : List Tree → List (Option Tree × Tree)
  | [] => []
  | t :: ts => t.preorder (some parent) ++ preorderAll parent ts

end

mutual

/-- The places of a tree in preorder. -/
def Tree.places : Tree → List Tree.Place
  | .node _ _ _ _ cs => [] :: placesFrom 0 cs

/-- The places below a node, in its children from the one at `i` on. -/
def placesFrom (i : Nat) : List Tree → List Tree.Place
  | [] => []
  | t :: ts => t.places.map (i :: ·) ++ placesFrom (i + 1) ts

end

/-! ## The order of places -/

theorem mem_placesFrom {i : Nat} {ts : List Tree} {place : Tree.Place} :
    place ∈ placesFrom i ts ↔
      ∃ j t rest, ts[j]? = some t ∧ rest ∈ t.places ∧ place = (i + j) :: rest := by
  induction ts generalizing i with
  | nil => simp [placesFrom]
  | cons t ts ih =>
    rw [placesFrom, List.mem_append, List.mem_map, ih]
    constructor
    · rintro (⟨rest, hrest, rfl⟩ | ⟨j, u, rest, hu, hrest, rfl⟩)
      · exact ⟨0, t, rest, rfl, hrest, rfl⟩
      · exact ⟨j + 1, u, rest, hu, hrest, by rw [Nat.add_right_comm, Nat.add_assoc]⟩
    · rintro ⟨j, u, rest, hu, hrest, rfl⟩
      cases j with
      | zero =>
        obtain rfl : t = u := by simpa using hu
        exact Or.inl ⟨rest, hrest, rfl⟩
      | succ j =>
        exact Or.inr ⟨j, u, rest, by simpa using hu, hrest,
          by rw [Nat.add_right_comm, Nat.add_assoc]⟩

/-- The places of a tree are those where it has a node. -/
theorem Tree.mem_places {t : Tree} {place : Tree.Place} :
    place ∈ t.places ↔ ∃ u, t.at? place = some u := by
  induction place generalizing t with
  | nil =>
    obtain ⟨k, n, r, s, cs⟩ := t
    simp [Tree.places]
  | cons i place ih =>
    obtain ⟨k, n, r, s, cs⟩ := t
    simp only [Tree.places, List.mem_cons, reduceCtorEq, false_or, mem_placesFrom, Tree.at?_cons,
      Tree.children]
    constructor
    · rintro ⟨j, c, rest, hc, hrest, he⟩
      obtain ⟨rfl, rfl⟩ := List.cons.inj he
      obtain ⟨u, hu⟩ := ih.1 hrest
      exact ⟨u, c, by simpa using hc, hu⟩
    · rintro ⟨u, c, hc, hu⟩
      exact ⟨i, c, place, hc, ih.2 ⟨u, hu⟩, by simp⟩

theorem placesFrom_sorted {i : Nat} {ts : List Tree}
    (h : ∀ t ∈ ts, t.places.Pairwise (· < ·)) : (placesFrom i ts).Pairwise (· < ·) := by
  induction ts generalizing i with
  | nil => exact List.Pairwise.nil
  | cons t ts ih =>
    rw [placesFrom, List.pairwise_append]
    refine ⟨?_, ih fun u hu => h u (List.mem_cons_of_mem _ hu), ?_⟩
    · rw [List.pairwise_map]
      refine (h t List.mem_cons_self).imp ?_
      intro p q hpq
      exact List.cons_lt_cons_iff.2 (Or.inr ⟨rfl, hpq⟩)
    · intro p hp q hq
      obtain ⟨p, _, rfl⟩ := List.mem_map.1 hp
      obtain ⟨j, _, q, _, _, rfl⟩ := mem_placesFrom.1 hq
      exact List.cons_lt_cons_iff.2 (Or.inl (by omega))

/-- No place comes twice, and each comes before those below it and right of it. -/
theorem Tree.places_sorted (t : Tree) : t.places.Pairwise (· < ·) := by
  induction t using Tree.child_induction with
  | node k n r s cs ih =>
    rw [Tree.places, List.pairwise_cons]
    refine ⟨?_, placesFrom_sorted ih⟩
    intro place hplace
    obtain ⟨j, _, rest, _, _, rfl⟩ := mem_placesFrom.1 hplace
    exact List.nil_lt_cons _ _

/-! ## What stands at the places -/

/-- At the place stands the node that is visited, and above it its parent. The root stands below
`parent`. -/
def Tree.Visited (t : Tree) (parent : Option Tree) (place : Tree.Place)
    (visit : Option Tree × Tree) : Prop :=
  t.at? place = some visit.2 ∧ visit.1 = if place = [] then parent else t.at? place.dropLast

theorem Tree.Visited.below {t c : Tree} {i : Nat} {place : Tree.Place} {visit : Option Tree × Tree}
    (hc : t.children[i]? = some c) (h : c.Visited (some t) place visit) (parent : Option Tree) :
    t.Visited parent (i :: place) visit := by
  obtain ⟨hnode, hparent⟩ := h
  refine ⟨Tree.at?_cons.2 ⟨c, hc, hnode⟩, ?_⟩
  rw [hparent, if_neg (List.cons_ne_nil i place)]
  cases place with
  | nil => simp
  | cons j place => simp [Tree.at?, hc]

theorem visited_placesFrom {t : Tree} {parent : Option Tree} {i : Nat} {ts : List Tree}
    (hts : ∀ j, t.children[i + j]? = ts[j]?)
    (h : ∀ c ∈ ts, List.Forall₂ (c.Visited (some t)) c.places (c.preorder (some t))) :
    List.Forall₂ (t.Visited parent) (placesFrom i ts) (preorderAll t ts) := by
  induction ts generalizing i with
  | nil => exact .nil
  | cons c ts ih =>
    rw [placesFrom, preorderAll]
    refine List.rel_append ?_ (ih ?_ fun u hu => h u (List.mem_cons_of_mem _ hu))
    · rw [List.forall₂_map_left_iff]
      refine (h c List.mem_cons_self).imp ?_
      intro place visit hvisit
      exact hvisit.below (by simpa using hts 0) parent
    · intro j
      rw [Nat.add_right_comm, Nat.add_assoc]
      exact hts (j + 1)

/-- The nodes in preorder are those at the places, in the order of places. -/
theorem Tree.visited_places (t : Tree) (parent : Option Tree) :
    List.Forall₂ (t.Visited parent) t.places (t.preorder parent) := by
  induction t using Tree.child_induction generalizing parent with
  | node k n r s cs ih =>
    rw [Tree.places, Tree.preorder]
    refine .cons ⟨rfl, rfl⟩ (visited_placesFrom ?_ fun c hc => ih c hc _)
    intro j
    rw [Nat.zero_add]
    rfl

/-! ## The walk -/

namespace Cursor

/-- What lies right of the cursor and of the nodes above it, in preorder. -/
def right (c : Cursor) : List (Option Tree × Tree) :=
  c.trail.flatMap fun level => preorderAll level.1 level.2

/-- What a walk from the cursor on is to visit. -/
def toCome (c : Cursor) : List (Option Tree × Tree) := c.node.preorder c.parent? ++ c.right

theorem toCome_down {c d : Cursor} (h : c.down? = some d) :
    c.toCome = (c.parent?, c.node) :: d.toCome := by
  obtain ⟨⟨k, n, r, s, cs⟩, trail⟩ := c
  unfold down? at h
  split at h
  · cases h
  · rename_i t ts hcs
    obtain rfl : cs = t :: ts := hcs
    cases h
    simp [toCome, right, parent?, Tree.preorder, preorderAll]

theorem toCome_leaf {c : Cursor} (h : c.down? = none) :
    c.toCome = (c.parent?, c.node) :: c.right := by
  obtain ⟨⟨k, n, r, s, cs⟩, trail⟩ := c
  unfold down? at h
  split at h
  · rename_i hcs
    obtain rfl : cs = [] := hcs
    simp [toCome, Tree.preorder, preorderAll]
  · cases h

theorem toCome_next {c d : Cursor} (h : c.next? = some d) : d.toCome = c.right := by
  unfold next? at h
  split at h
  · rename_i htrail
    cases h
    simp [toCome, right, parent?, htrail, preorderAll]
  · cases h

theorem right_up {c d : Cursor} (h : c.next? = none) (hup : c.up? = some d) :
    d.right = c.right := by
  obtain ⟨node, trail⟩ := c
  cases trail with
  | nil => cases hup
  | cons level trail =>
    obtain ⟨above, siblings⟩ := level
    cases siblings with
    | nil =>
      cases hup
      simp [right, preorderAll]
    | cons t ts => cases h

theorem right_of_up?_eq_none {c : Cursor} (h : c.up? = none) : c.right = [] := by
  unfold up? at h
  split at h
  · cases h
  · rename_i htrail
    simp [right, htrail]

theorem toCome_onward {c d : Cursor} (h : c.onward? = some d) : d.toCome = c.right := by
  fun_induction onward? c with
  | case1 c e hnext =>
    cases h
    exact toCome_next hnext
  | case2 c hnext e hup ih => rw [ih h, right_up hnext hup]
  | case3 => cases h

theorem right_of_onward?_eq_none {c : Cursor} (h : c.onward? = none) : c.right = [] := by
  fun_induction onward? c with
  | case1 => cases h
  | case2 c hnext e hup ih => rw [← right_up hnext hup, ih h]
  | case3 c hnext hup => exact right_of_up?_eq_none hup

/-- The walk visits what lies ahead, after what it has visited before. -/
theorem walkFrom_eq (c : Cursor) (visited : Array (Option Tree × Tree)) :
    (c.walkFrom visited).toList = visited.toList ++ c.toCome := by
  fun_induction walkFrom c visited with
  | case1 c visited seen d hdown ih => rw [ih, toCome_down hdown, Array.toList_push]; simp
  | case2 c visited seen hdown d honward ih =>
    rw [ih, toCome_leaf hdown, toCome_onward honward, Array.toList_push]
    simp
  | case3 c visited seen hdown honward =>
    rw [toCome_leaf hdown, right_of_onward?_eq_none honward, Array.toList_push]

end Cursor

theorem Tree.walk_eq_preorder (root : Tree) : root.walk = root.preorder none := by
  unfold Tree.walk
  rw [Cursor.walkFrom_eq]
  simp [Cursor.toCome, Cursor.right, Cursor.parent?]

/-- The visit of a place that the tree has. -/
def Tree.visitAt (root : Tree) (place : Tree.Place) : Option Tree × Tree :=
  (root.above? place, (root.at? place).getD root)

theorem Tree.visitAt_eq {root t : Tree} {place : Tree.Place} (h : root.at? place = some t) :
    root.visitAt place = (root.above? place, t) := by
  unfold Tree.visitAt
  rw [h, Option.getD_some]

/-- The walk visits every place once, in preorder. -/
theorem Tree.walk_eq_map (root : Tree) : root.walk = root.places.map root.visitAt := by
  have hvisits : List.Forall₂ (fun place visit => visit = root.visitAt place) root.places
      (root.preorder none) := by
    refine (root.visited_places none).imp ?_
    rintro place ⟨parent, node⟩ ⟨hnode, hparent⟩
    rw [Tree.visitAt_eq hnode]
    exact Prod.ext hparent rfl
  rw [root.walk_eq_preorder, ← List.forall₂_eq_eq_eq, List.forall₂_map_right_iff]
  exact hvisits.flip

end Uplift.Script
