-- Reading typed fields out of JSON objects.
import Uplift.Json.Value

namespace Uplift.Json

/-- A field that must be there. -/
def field? {α : Type} (j : Json) (name : String) (read : Json → Option α) : Option α := do
  read (← j.get? name)

/-- A field that may be missing or null. -/
def optField? {α : Type} (j : Json) (name : String) (read : Json → Option α) : Option (Option α) :=
  match (j.get? name).bind nonNull? with
  | none => some none
  | some v => (read v).map some

def text? (j : Json) : Option Text := j.str?.map String.toList

/-- A list of values of one kind. -/
def list? {α : Type} (read : Json → Option α) (j : Json) : Option (List α) := do
  (← j.arr?).mapM read

/-- A number below `limit`. -/
def natBelow? (limit : Nat) (j : Json) : Option Nat := do
  let n ← j.nat?
  if n < limit then some n else none

/-- A count that fits 32 bits. -/
def nat32? : Json → Option Nat := natBelow? UInt32.size

/-- A count that fits 64 bits. -/
def nat64? : Json → Option Nat := natBelow? UInt64.size

/-- A value of a fixed list of names. -/
def named? {α : Type} (ofName? : String → Option α) (j : Json) : Option α := j.variant?.bind ofName?

/-- An optional text. -/
def ofText? : Option String → Json
  | some s => .str s
  | none => .null

def ofText (t : Text) : Json := .str (String.ofList t)

end Uplift.Json
