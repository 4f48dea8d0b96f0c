-- From a pattern to files. A pattern has a literal directory in front and a
-- glob behind it. The files below the directory are those that no ignore rule
-- takes out, neither themselves nor a directory on the way to them.
import Uplift.Config.Basic
import Uplift.Detect.Run
import Uplift.Ignore.Defaults
import Uplift.Ignore.File

namespace Uplift

/-! ## Patterns -/

namespace ScanPattern

/-- Put the home directory in place of a leading `~`. -/
def expandHome (home : Option String) (pattern : String) : String :=
  match home, pattern.toList with
  | some home, ['~'] => home
  | some home, '~' :: '/' :: rest => Path.child home (String.ofList rest)
  | _, _ => pattern

/-- Characters that make a step of a pattern more than a name. -/
def isMeta (c : Char) : Bool := c == '*' || c == '?' || c == '[' || c == '{'

/-- Cut a pattern before its first step that is more than a name. -/
def split (pattern : String) : String × Option String :=
  let steps := Path.splitSlash pattern.toList
  let literal := steps.takeWhile fun s => !s.any isMeta
  let rest := steps.dropWhile fun s => !s.any isMeta
  if rest.isEmpty then (pattern, none)
  else
    let base := String.ofList (Text.join ['/'] literal)
    let base :=
      if !base.isEmpty then base
      else if pattern.toList.head? = some '/' then "/" else "."
    (base, some (String.ofList (Text.join ['/'] rest)))

end ScanPattern

namespace Discover

/-! ## Ignore files of version control -/

/-- The rules of version control by directory: those of `.gitignore`, and those that are
private to a working copy. -/
structure GitRules where
  shared : List (Place × IgnoreFile.Contents) := []
  personal : List (Place × IgnoreFile.Contents) := []

/-- The text of an absolute place. -/
def placeText (place : Place) : String := "/" ++ String.intercalate "/" place

/-- All files with the names `suffix`, with the directory above those names. -/
def ignoreFiles (d : Disk) (suffix : List String) : List (Place × IgnoreFile.Contents) :=
  d.nodes.filterMap fun (place, node) =>
    match node with
    | .directory => none
    | .file bytes =>
      if suffix.isSuffixOf place then
        some (place.take (place.length - suffix.length), IgnoreFile.ofBytes (placeText place) bytes)
      else none

def gitRules (d : Disk) : GitRules where
  shared := ignoreFiles d [".gitignore"]
  personal := ignoreFiles d [".git", "info", "exclude"]

/-- A directory as rules and paths name it, and where it is. -/
structure Folder where
  text : String
  place : Place

/-- The directories that lead to `rel`, nearest first. -/
def foldersTo (base : Folder) (rel : Place) : List Folder :=
  (List.range rel.length).reverse.map fun n =>
    ⟨(rel.take n).foldl Path.child base.text, base.place ++ rel.take n⟩

/-- The directories above `place`, nearest first. -/
def foldersAbove (place : Place) : List Folder :=
  (List.range place.length).reverse.map fun n => ⟨placeText (place.take n), place.take n⟩

/-- The first verdict of the rules of some directories. -/
def folderVerdict? (rules : List (Place × IgnoreFile.Contents)) (folders : List Folder)
    (path : Text) (isDir : Bool) : Option Verdict :=
  folders.findSome? fun f => do
    let contents ← List.lookup f.place rules
    (IgnoreRules.under f.text contents.rules).verdict? path isDir

/-- What version control says about an entry: the nearest directory with a matching rule
decides, from the base of the scan by the path as it is written, from above by the absolute
path. -/
def gitIgnores (git : GitRules) (base : Folder) (rel : Place) (isDir : Bool) : Bool :=
  let path := IgnoreRules.dropHere (rel.foldl Path.child base.text).toList
  let absolute := (placeText (base.place ++ rel)).toList
  let verdict? := fun rules =>
    folderVerdict? rules (foldersTo base rel) path isDir <|>
      folderVerdict? rules (foldersAbove base.place) absolute isDir
  (verdict? git.shared <|> verdict? git.personal) = some .ignored

/-- Faults in the rules of the directories above the base, outermost first. -/
def faultsAbove (git : GitRules) (place : Place) : List String :=
  (foldersAbove place).reverse.flatMap fun f =>
    let faultsOf := fun rules =>
      ((List.lookup f.place rules).map IgnoreFile.Contents.faults).getD []
    faultsOf git.shared ++ faultsOf git.personal

/-! ## Walking a directory -/

/-- The file in the base directory with rules of its own. -/
def ignoreFileName : String := ".retrofitignore"

/-- A text for the names of a place. -/
def relText (rel : Place) : Text := (String.intercalate "/" rel).toList

/-- No rule takes the file out, nor a directory that leads to it. -/
def survives (rules : IgnoreRules) (git : GitRules) (base : Folder) (rel : Place) : Bool :=
  (List.range rel.length).all fun n =>
    let part := rel.take (n + 1)
    let isDir := n + 1 < rel.length
    !rules.ignores (relText part) isDir && !gitIgnores git base part isDir

/-- Rules of the scan: the defaults, the given lines, and the ignore file in the base. -/
def scanRules (d : Disk) (s : ScanSettings) (base : Folder) : Except ScanError IgnoreRules := do
  let rules ← IgnoreRules.defaultsAnd s.extraIgnore
  let own := match d.readAt (base.place ++ [ignoreFileName]) with
    | .ok bytes => (IgnoreFile.ofBytes ignoreFileName bytes).rules
    | .error _ => []
  return .under base.text (rules ++ own)

/-- Sort a found file: too large, or one more file of the scan. -/
def addFile (limit : Nat) (found : Discovery) (path : String) (size : Nat) : Discovery :=
  if size > limit then { found with skipped := found.skipped ++ [.fileTooLarge path size limit] }
  else { found with files := found.files ++ [path] }

/-- The accepted files below a directory, in the order of their paths. -/
def walk (d : Disk) (s : ScanSettings) (base : Folder) (accept : Text → Bool) :
    Except ScanError Discovery := do
  let rules ← scanRules d s base
  let git := if s.usesGitignore then gitRules d else {}
  let faults := faultsAbove git base.place
  let start : Discovery := {
    base := base.text
    skipped :=
      if faults.isEmpty then [] else [.io base.text (String.intercalate "\n" faults)] }
  let entries := (d.filesBelow base.place).filter fun (rel, _) =>
    accept (relText rel) && survives rules git base rel
  let named := entries.map fun (rel, bytes) => (rel.foldl Path.child base.text, bytes.size)
  let sorted := named.mergeSort fun a b => !Path.before b.1 a.1
  return sorted.foldl (fun found (path, size) => addFile s.fileLimit found path size) start

end Discover

/-- Compile the glob of a pattern. -/
def ScanPattern.compile (glob : String) : Except ScanError Glob :=
  (Glob.parse false glob.toList).mapError fun fault =>
    .invalidPattern glob (fault.messageFor glob)

/-- Expand a pattern into files. A pattern without a glob names one file, or a directory with
all its source files. A pattern that matches nothing is no error. -/
def discover (d : Disk) (home : Option String) (s : ScanSettings) (pattern : String) :
    Except ScanError Discovery := do
  let (base, glob) := ScanPattern.split (ScanPattern.expandHome home pattern)
  let folder? : Option Discover.Folder :=
    match d.locate base with
    | .ok place => if d.isDirAt place then some ⟨base, place⟩ else none
    | .error _ => none
  match glob, folder? with
  | some glob, folder? =>
    let glob ← ScanPattern.compile glob
    match folder? with
    | some folder => Discover.walk d s folder glob.accepts
    | none => return { base }
  | none, some folder =>
    Discover.walk d s folder fun rel =>
      (Path.extension? (String.ofList rel)).any (s.sourceExtensions.contains ·)
  | none, none => return { base, files := if d.isFile base then [base] else [] }

end Uplift
