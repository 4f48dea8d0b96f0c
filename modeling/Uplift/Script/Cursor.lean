-- A cursor on a syntax tree. It stands on a node and keeps what lies above it
-- and to its right, so it can go down, on and up. A walk visits the node it
-- stands on, then goes down where it can, and otherwise on, from as far up as
-- it has to.
import Uplift.Script.Tree

namespace Uplift.Script

mutual

/-- The number of nodes in a tree. -/
def Tree.size : Tree → Nat
  | .node _ _ _ _ cs => 1 + sizeAll cs

/-- The number of nodes in some trees. -/
def sizeAll : List Tree → Nat
  | [] => 0
  | t :: ts => t.size + sizeAll ts

end

/-- A place in a tree to go on from. -/
structure Cursor where
  node : Tree
  /-- The nodes above, the nearest first, each with its children right of the way down. -/
  trail : List (Tree × List Tree) := []

namespace Cursor

/-- The node right above. -/
def parent? (c : Cursor) : Option Tree := c.trail.head?.map (·.1)

/-- To the first child. -/
def down? (c : Cursor) : Option Cursor :=
  match c.node.children with
  | [] => none
  | t :: ts => some ⟨t, (c.node, ts) :: c.trail⟩

/-- To the next sibling. -/
def next? (c : Cursor) : Option Cursor :=
  match c.trail with
  | (above, t :: ts) :: trail => some ⟨t, (above, ts) :: trail⟩
  | _ => none

def up? (c : Cursor) : Option Cursor :=
  match c.trail with
  | (above, _) :: trail => some ⟨above, trail⟩
  | [] => none

theorem up?_trail_length {c d : Cursor} (h : c.up? = some d) : d.trail.length < c.trail.length := by
  unfold up? at h
  split at h
  · rename_i htrail
    cases h
    simp [htrail]
  · cases h

/-- To the next sibling, or to that of the nearest node above which has one. -/
def onward? (c : Cursor) : Option Cursor :=
  match c.next? with
  | some d => some d
  | none =>
    match _h : c.up? with
    | some d => d.onward?
    | none => none
termination_by c.trail.length
decreasing_by exact up?_trail_length _h

/-- The number of nodes right of the cursor and of what lies above it. -/
def pending (c : Cursor) : Nat := c.trail.foldr (fun level n => sizeAll level.2 + n) 0

/-- The number of nodes that a walk from here on visits. -/
def ahead (c : Cursor) : Nat := c.node.size + c.pending

theorem down?_ahead {c d : Cursor} (h : c.down? = some d) : d.ahead < c.ahead := by
  obtain ⟨⟨k, n, r, s, cs⟩, trail⟩ := c
  unfold down? at h
  split at h
  · cases h
  · rename_i t ts hcs
    obtain rfl : cs = t :: ts := hcs
    cases h
    simp only [ahead, pending, Tree.size, sizeAll, List.foldr_cons]
    omega

theorem next?_ahead {c d : Cursor} (h : c.next? = some d) : d.ahead = c.pending := by
  unfold next? at h
  split at h
  · rename_i htrail
    cases h
    simp only [ahead, pending, htrail, sizeAll, List.foldr_cons]
    omega
  · cases h

theorem up?_pending {c d : Cursor} (h : c.next? = none) (hup : c.up? = some d) :
    d.pending = c.pending := by
  obtain ⟨node, trail⟩ := c
  cases trail with
  | nil => cases hup
  | cons level trail =>
    obtain ⟨above, right⟩ := level
    cases right with
    | nil =>
      cases hup
      simp [pending, sizeAll]
    | cons t ts => cases h

theorem onward?_ahead {c d : Cursor} (h : c.onward? = some d) : d.ahead = c.pending := by
  fun_induction onward? c with
  | case1 c e hnext =>
    cases h
    exact next?_ahead hnext
  | case2 c hnext e hup ih => rw [ih h, up?_pending hnext hup]
  | case3 => cases h

theorem onward?_lt {c d : Cursor} (h : c.onward? = some d) : d.ahead < c.ahead := by
  have hpos : 0 < c.node.size := by
    cases c.node
    simp only [Tree.size]
    omega
  rw [onward?_ahead h, ahead]
  omega

/-- Visit the nodes from the cursor on, each with its parent. -/
def walkFrom (c : Cursor) (visited : Array (Option Tree × Tree)) : Array (Option Tree × Tree) :=
  let visited := visited.push (c.parent?, c.node)
  match _h : c.down? with
  | some d => d.walkFrom visited
  | none =>
    match _h : c.onward? with
    | some d => d.walkFrom visited
    | none => visited
termination_by c.ahead
decreasing_by
  · exact down?_ahead _h
  · exact onward?_lt _h

end Cursor

/-- Every node of a tree in the order of the walk, each with its parent. -/
def Tree.walk (root : Tree) : List (Option Tree × Tree) := (Cursor.walkFrom ⟨root, []⟩ #[]).toList

end Uplift.Script
