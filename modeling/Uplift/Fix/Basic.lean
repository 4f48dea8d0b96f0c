-- Proposed fixes, how sure they are, and counts of them.
import Uplift.Catalog.Rule
import Uplift.Lifecycle.Pattern

namespace Uplift

/-- What a fix does to the method it is about. -/
inductive FixKind where
  | remove
  | moveToConstructor
  | rename
  | manualReview
deriving DecidableEq

namespace FixKind

def name : FixKind → String
  | remove => "remove"
  | moveToConstructor => "move-to-constructor"
  | rename => "rename"
  | manualReview => "manual-review"

def ofName? (s : String) : Option FixKind :=
  [remove, moveToConstructor, rename, manualReview].find? (·.name == s)

end FixKind

/-- How safe a fix is held to be. -/
inductive Confidence where
  | low
  | medium
  | high
deriving DecidableEq

namespace Confidence

def name : Confidence → String
  | low => "low"
  | medium => "medium"
  | high => "high"

def ofName? (s : String) : Option Confidence := [high, medium, low].find? (·.name == s)

/-- Why a text names no level. -/
def unknownMessage (s : String) : String := s!"unknown confidence '{s}'"

def rank : Confidence → Nat
  | low => 0
  | medium => 1
  | high => 2

/-- At or above `threshold`. -/
def meets (c threshold : Confidence) : Bool := threshold.rank ≤ c.rank

end Confidence

inductive Urgency where
  | high
  | medium
  | low
deriving DecidableEq

namespace Urgency

def name : Urgency → String
  | high => "high"
  | medium => "medium"
  | low => "low"

def ofName? (s : String) : Option Urgency := [high, medium, low].find? (·.name == s)

end Urgency

/-- A proposed fix of one issue. `before` is the exact text of the method it is about. -/
structure Fix where
  api : String
  file : String
  line : Nat
  category : Category
  pattern : Lifecycle.Pattern
  description : String
  before : Text
  after : Text
  kind : FixKind
  confidence : Confidence
  urgency : Option Urgency := none
deriving DecidableEq

namespace Fix

/-- Only fixes that are sure are applied without being looked at. -/
def isAutoApplicable (f : Fix) : Bool := f.confidence == .high

end Fix

/-- How many fixes there are of each confidence. -/
structure FixCounts where
  high : Nat := 0
  medium : Nat := 0
  low : Nat := 0
deriving DecidableEq

namespace FixCounts

def ofFixes (fixes : List Fix) : FixCounts :=
  let count := fun c : Confidence => (fixes.filter (·.confidence == c)).length
  ⟨count .high, count .medium, count .low⟩

def total (n : FixCounts) : Nat := n.high + n.medium + n.low

/-- Fixes at or above a level. -/
def atLeast (n : FixCounts) : Confidence → Nat
  | .high => n.high
  | .medium => n.high + n.medium
  | .low => n.total

end FixCounts

/-- Items with the same file put together so far. `slots` says where the group of a file
stands. -/
structure FileGroups (α : Type) where
  slots : List (List Path.Step × Nat) := []
  groups : Array (String × List α) := #[]

namespace FileGroups

variable {α : Type}

/-- The slot of a file, and the groups with one for that file: a file that is new gets an empty
group behind the others. -/
def slotFor (g : FileGroups α) (path : String) : Nat × FileGroups α :=
  let steps := Path.steps path
  match g.slots.lookup steps with
  | some slot => (slot, g)
  | none => (g.groups.size, ⟨(steps, g.groups.size) :: g.slots, g.groups.push (path, [])⟩)

/-- Add an item to the group of its file. -/
def add (g : FileGroups α) (path : String) (a : α) : FileGroups α :=
  let (slot, g) := g.slotFor path
  { g with groups := g.groups.modify slot fun (p, as) => (p, as ++ [a]) }

end FileGroups

/-- Put items with the same file together: files in order of first appearance, each with its
items in order. -/
def groupByFile {α : Type} (file : α → String) (items : List α) : List (String × List α) :=
  (items.foldl (fun g a => g.add (file a) a) ({} : FileGroups α)).groups.toList

end Uplift
