-- Renaming an identifier. Only whole words in code count, and a word after a
-- dot is a property name, which is left alone.
import Uplift.Rename.Mask

namespace Uplift.Rename

/-- A character that an identifier can hold. -/
def isIdentChar (c : Char) : Bool := c.isAlphanum || c == '_' || c == '$' || 128 ≤ c.toNat

/-- What to do with the characters of an occurrence that is being passed. -/
inductive Passing where
  | keep
  | drop
deriving DecidableEq

/-- A word may start after `prev`. -/
def startsWordAfter (prev : Option Char) : Bool :=
  match prev with
  | none => true
  | some c => c != '.' && !isIdentChar c

/-- A word may end before `next`. -/
def endsWordBefore (next : Option Char) : Bool :=
  match next with
  | none => true
  | some c => !isIdentChar c

/-- The characters of `t` with their place in the mask from here on. -/
abbrev Marked := List (Char × Bool)

/-- `name` stands at the front; the result is what follows it. -/
def dropName? : Marked → Text → Option Marked
  | rest, [] => some rest
  | [], _ :: _ => none
  | (c, _) :: rest, d :: name => if c = d then dropName? rest name else none

/-- Rename from a place after `prev`, with `left` more characters of an occurrence to pass. -/
def renameFrom (name target : Text) (prev : Option Char) (left : Nat) (how : Passing) :
    Marked → Text
  | [] => []
  | (c, code) :: rest =>
    match left with
    | left + 1 =>
      match how with
      | .keep => c :: renameFrom name target (some c) left how rest
      | .drop => renameFrom name target (some c) left how rest
    | 0 =>
      match dropName? ((c, code) :: rest) name with
      | none => c :: renameFrom name target (some c) 0 .keep rest
      | some after =>
        if code && startsWordAfter prev && endsWordBefore (after.head?.map (·.1)) then
          target ++ renameFrom name target (some c) (name.length - 1) .drop rest
        else c :: renameFrom name target (some c) (name.length - 1) .keep rest

/-- Replace the identifier `name` by `target`. Nothing is called by the empty name. -/
def renameIdentifier (text name target : Text) : Text :=
  if name.isEmpty then text
  else renameFrom name target none 0 .keep (text.zip (codeMask text))

end Uplift.Rename
