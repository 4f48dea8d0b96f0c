-- Renaming a method onto the hook that replaces it. The hook that runs after
-- an update gets the former props and state, so parameters named for the next
-- ones are renamed with it.
import Uplift.Rename.Identifier
import Uplift.Snapshot

namespace Uplift.Rename

def didMount : String := "componentDidMount"

def didUpdate : String := "componentDidUpdate"

/-- The hook that replaces a hook called `name`. -/
def modernHook (name : String) : String :=
  if Text.mentions name.toList "ReceiveProps".toList || Text.mentions name.toList "Update".toList
  then didUpdate
  else didMount

/-- Replace the first occurrence of `part` in `t`. -/
def replaceFirst (t part target : Text) : Text :=
  match Text.dropLead? t part with
  | some rest => target ++ rest
  | none =>
    match t with
    | [] => []
    | c :: rest => c :: replaceFirst rest part target

/-- The text with its name token replaced. Where the spans do not fit the text, the first
occurrence of the name is taken. -/
def withName (m : Method) (target : Text) : Text :=
  let offset := m.nameSpan.start - m.span.start
  let stop := offset + m.nameSpan.stop - m.nameSpan.start
  match m.text.cut? offset, m.text.cut? stop with
  | some (head, _), some (_, tail) =>
    if m.nameSpan.start ≤ offset + m.nameSpan.stop then head ++ target ++ tail
    else replaceFirst m.text m.name.toList target
  | _, _ => replaceFirst m.text m.name.toList target

/-- Parameter `i` of `m` is called `name`. -/
def hasParam (m : Method) (i : Nat) (name : String) : Bool :=
  (m.params[i]?.map (·.name)) == some name

/-- The parameters that change their name with the method: place, old name, new name. -/
def renamedParams : List (Nat × String × String) :=
  [(0, "nextProps", "prevProps"), (1, "nextState", "prevState")]

/-- The text of `m` under the name `target`. -/
def renamedText (m : Method) (target : String) : Text :=
  let text := withName m target.toList
  if target == didUpdate then
    renamedParams.foldl (fun t (i, old, new) =>
      if hasParam m i old then renameIdentifier t old.toList new.toList else t) text
  else text

end Uplift.Rename
