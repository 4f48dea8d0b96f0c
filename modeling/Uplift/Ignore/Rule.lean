-- Rules that take files out of a scan, one per line. Later rules win over
-- earlier ones, and a rule with an exclamation mark puts files back in.
import Uplift.Glob.Reader
import Uplift.Path
import Uplift.Text.Blank

namespace Uplift

/-- One rule. -/
structure IgnoreRule where
  glob : Glob
  /-- The rule keeps what it matches. -/
  keeps : Bool := false
  /-- The rule is about directories only. -/
  dirsOnly : Bool := false

/-- What a rule says about a path. -/
inductive Verdict where
  | ignored
  | kept
deriving DecidableEq

namespace IgnoreRule

def verdict (r : IgnoreRule) : Verdict := if r.keeps then .kept else .ignored

/-- A rule whose pattern holds no slash matches below any directory, and one that ends in
`/**` matches what is below a directory but not the directory. -/
def widen (anchored : Bool) (pattern : Text) : Text :=
  let anywhere := !anchored && !pattern.contains '/' && pattern != ['*', '*']
  let wide := if anywhere then ['*', '*', '/'] ++ pattern else pattern
  if ['*', '*', '/'].isPrefixOf wide.reverse then wide ++ ['/', '*'] else wide

/-- Take a slash, and a backslash before it, off the end of a pattern. -/
def dropFinalSlash (t : Text) : Bool × Text :=
  match t.dropLast? '/' with
  | none => (false, t)
  | some t => (true, (t.dropLast? '\\').getD t)

/-- Read a rule without its mark. -/
def ofPattern (keeps anchored : Bool) (pattern : Text) : Except Glob.Fault IgnoreRule := do
  let (dirsOnly, pattern) := dropFinalSlash pattern
  return { glob := ← Glob.parse true (widen anchored pattern), keeps, dirsOnly }

/-- The pattern after a slash in front, which ties it to the root of the rules. -/
def ofAnchored (keeps : Bool) : Text → Except Glob.Fault IgnoreRule
  | '/' :: rest => ofPattern keeps true rest
  | t => ofPattern keeps false t

/-- Drop blanks at the end of a line, unless the last is a space behind a backslash. -/
def trimLine (t : Text) : Text :=
  match t.reverse with
  | ' ' :: '\\' :: _ => t
  | _ => Text.trimEnd t

/-- The rule on a line; comments and blank lines hold none. -/
def ofLine (line : Text) : Except Glob.Fault (Option IgnoreRule) :=
  if line.head? = some '#' then .ok none
  else
    match trimLine line with
    | [] => .ok none
    | '\\' :: '!' :: rest => (ofPattern false false ('!' :: rest)).map some
    | '\\' :: '#' :: rest => (ofPattern false false ('#' :: rest)).map some
    | '!' :: rest => (ofAnchored true rest).map some
    | t => (ofAnchored false t).map some

end IgnoreRule

/-- Rules in order, and the directory that their patterns start from. -/
structure IgnoreRules where
  root : Text
  rules : List IgnoreRule

namespace IgnoreRules

/-- A text without a leading `./`. -/
def dropHere (t : Text) : Text := (t.dropLead? ['.', '/']).getD t

/-- The rules of a directory. -/
def under (root : String) (rules : List IgnoreRule) : IgnoreRules := ⟨dropHere root.toList, rules⟩

/-- A path as the rules see it: without the root in front. The root is taken off as text, so a
step that only starts like the root loses that part. A path of one step stays as it is. -/
def relative (root path : Text) : Text :=
  let path := dropHere path
  if Path.same (String.ofList root) "." ∨ !path.contains '/' then path
  else
    match path.dropLead? root with
    | none => path
    | some rest => (rest.dropLead? ['/']).getD rest

/-- What the rules say about a path: the last rule that matches it decides. -/
def verdict? (rs : IgnoreRules) (path : Text) (isDir : Bool) : Option Verdict :=
  let path := relative rs.root path
  let decides := fun (r : IgnoreRule) => (!r.dirsOnly || isDir) && r.glob.accepts path
  (rs.rules.reverse.find? decides).map IgnoreRule.verdict

/-- The path is taken out. -/
def ignores (rs : IgnoreRules) (path : Text) (isDir : Bool) : Bool :=
  rs.verdict? path isDir = some .ignored

end IgnoreRules

end Uplift
