-- Slash-separated paths. Two spellings name the same file when their steps
-- agree: repeated slashes and inner `.` steps do not count, a leading `.` does.
import Uplift.Text.Basic

namespace Uplift.Path

/-- One step of a path. -/
inductive Step where
  | root
  | here
  | up
  | name (s : String)
deriving DecidableEq

/-- Split at every `/`. -/
def splitSlash : Text → List Text
  | [] => [[]]
  | c :: t =>
    match splitSlash t with
    | [] => [[c]]
    | part :: more => if c = '/' then [] :: part :: more else (c :: part) :: more

/-- The steps of a path, in order. -/
def steps (path : String) : List Step :=
  let parts := splitSlash path.toList
  let absolute := path.toList.head? = some '/'
  let lead : List Step :=
    if absolute then [.root] else if parts.head? = some ['.'] then [.here] else []
  lead ++ parts.filterMap fun p =>
    if p = [] ∨ p = ['.'] then none
    else if p = ['.', '.'] then some .up
    else some (.name (String.ofList p))

/-- Both spellings name the same file. -/
def same (a b : String) : Bool := steps a = steps b

/-- The rank of a step's kind in the order of paths. -/
def Step.rank : Step → Nat
  | root => 0
  | here => 1
  | up => 2
  | name _ => 3

/-- The order of single steps: by kind, names by their characters. -/
def Step.before : Step → Step → Bool
  | .name a, .name b => a < b
  | a, b => a.rank < b.rank

/-- The order of step lists: by the first step that differs, a shorter list first. -/
def stepsBefore : List Step → List Step → Bool
  | [], rest => !rest.isEmpty
  | _ :: _, [] => false
  | a :: as, b :: bs => if a = b then stepsBefore as bs else a.before b

/-- The order of paths. -/
def before (a b : String) : Bool := stepsBefore (steps a) (steps b)

/-- The last step, when it is a name. -/
def fileName? (path : String) : Option String :=
  match (steps path).getLast? with
  | some (.name s) => some s
  | _ => none

/-- What follows the last dot of the file name, unless that dot comes first. -/
def extension? (path : String) : Option String := do
  let name := (← fileName? path).toList
  let tail := (name.reverse.takeWhile (· ≠ '.')).reverse
  let stem := name.take (name.length - tail.length - 1)
  if tail.length = name.length ∨ stem = [] then none else some (String.ofList tail)

/-- The file name, or the whole path where the last step is no name. -/
def shortName (path : String) : String := (fileName? path).getD path

/-- `part` below `base`; an absolute `part` stands for itself. -/
def child (base part : String) : String :=
  if part.toList.head? = some '/' then part
  else if base.isEmpty then part
  else if base.toList.getLast? = some '/' then base ++ part
  else base ++ "/" ++ part

end Uplift.Path
