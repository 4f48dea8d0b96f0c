-- Edits of one text. All offsets refer to the text as it was, so a list of
-- edits is applied in one pass from left to right. The list is refused when an
-- edit does not fit the text, and otherwise when two of its edits collide.
import Uplift.Error
import Uplift.Text.Basic

namespace Uplift

/-- Replace bytes `start` up to `stop` by `replacement`. -/
structure Edit where
  start : Nat
  stop : Nat
  replacement : Text
deriving DecidableEq

namespace Edit

def insert (at' : Nat) (text : Text) : Edit := ⟨at', at', text⟩

def delete (start stop : Nat) : Edit := ⟨start, stop, []⟩

/-- By where edits start, then by where they stop. -/
def before (a b : Edit) : Bool := a.start < b.start || (a.start == b.start && a.stop ≤ b.stop)

/-- The edit covers whole characters of `source`. -/
def fits (source : Text) (e : Edit) : Bool :=
  e.start ≤ e.stop && Text.isBoundary source e.start && Text.isBoundary source e.stop

/-- The first edit that reaches into the one after it. -/
def firstOverlap? : List Edit → Option (Edit × Edit)
  | a :: b :: rest => if b.start < a.stop then some (a, b) else firstOverlap? (b :: rest)
  | _ => none

/-- Apply ordered edits to `rest`, the part of the source from byte `pos` on. -/
def splice (rest : Text) (pos : Nat) : List Edit → Text
  | [] => rest
  | e :: es =>
    match rest.cut? (e.start - pos) with
    | none => rest
    | some (kept, tail) =>
      match tail.cut? (e.stop - e.start) with
      | none => rest
      | some (_, tail) => kept ++ e.replacement ++ splice tail e.stop es

/-- Apply all edits to `source`, whatever order they are given in. -/
def applyAll (source : Text) (edits : List Edit) : Except ApplyError Text :=
  let ordered := edits.mergeSort before
  match ordered.find? (!·.fits source) with
  | some e => .error (.outOfBounds e.start e.stop source.width)
  | none =>
    match firstOverlap? ordered with
    | some (a, b) => .error (.overlappingEdits a.stop b.start)
    | none => .ok (splice source 0 ordered)

end Edit

end Uplift
