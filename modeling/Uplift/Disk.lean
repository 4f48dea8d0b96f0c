-- A file system as a value: files with their bytes, directories, and the
-- directory that relative paths start from. A directory is there if it is
-- listed, or if something is listed below it.
import Uplift.Path

namespace Uplift

/-- Where something is: the names on the way from the root. -/
abbrev Place := List String

/-- What can be at a place. -/
inductive Disk.Node where
  | directory
  | file (bytes : ByteArray)

structure Disk where
  /-- The working directory. -/
  here : Place := []
  nodes : List (Place × Disk.Node) := []

namespace Disk

/-- Why the disk refuses. -/
inductive Refusal where
  | missing
  | notDirectory
  | isDirectory
  | notText
deriving DecidableEq

def Refusal.message : Refusal → String
  | missing => "No such file or directory (os error 2)"
  | notDirectory => "Not a directory (os error 20)"
  | isDirectory => "Is a directory (os error 21)"
  | notText => "stream did not contain valid UTF-8"

/-- What is at a place. -/
def nodeAt? (d : Disk) (place : Place) : Option Node :=
  match List.lookup place d.nodes with
  | some node => some node
  | none =>
    if place.isEmpty ∨ d.nodes.any (place.isPrefixOf ·.1) then some .directory else none

def isDirAt (d : Disk) (place : Place) : Bool :=
  d.nodeAt? place matches some .directory

/-- Go one step of a path. Any step, even to stay, needs a directory to go from. -/
def walk (d : Disk) (place : Place) (step : Text) : Except Refusal Place :=
  match d.nodeAt? place with
  | none => .error .missing
  | some (.file _) => .error .notDirectory
  | some .directory =>
    if step = [] ∨ step = ['.'] then .ok place
    else if step = ['.', '.'] then .ok place.dropLast
    else .ok (place ++ [String.ofList step])

/-- The place that a path names. Its directory is there, the place itself may not be. -/
def locate (d : Disk) (path : String) : Except Refusal Place :=
  match path.toList with
  | [] => .error .missing
  | '/' :: rest => (Path.splitSlash rest).foldlM d.walk []
  | t => (Path.splitSlash t).foldlM d.walk d.here

/-- What a path names. -/
def node? (d : Disk) (path : String) : Option Node :=
  match d.locate path with
  | .ok place => d.nodeAt? place
  | .error _ => none

def hasPath (d : Disk) (path : String) : Bool := (d.node? path).isSome

def isFile (d : Disk) (path : String) : Bool := d.node? path matches some (.file _)

def isDir (d : Disk) (path : String) : Bool := d.node? path matches some .directory

/-- The bytes of a file. -/
def readAt (d : Disk) (place : Place) : Except Refusal ByteArray :=
  match d.nodeAt? place with
  | none => .error .missing
  | some .directory => .error .isDirectory
  | some (.file bytes) => .ok bytes

/-- The text of a file. -/
def readText (d : Disk) (path : String) : Except Refusal Text := do
  let bytes ← d.readAt (← d.locate path)
  match String.fromUTF8? bytes with
  | some s => return s.toList
  | none => throw .notText

/-- Put a node in its place. -/
def putNode (place : Place) (node : Node) : List (Place × Node) → List (Place × Node)
  | [] => [(place, node)]
  | (p, n) :: rest =>
    if p = place then (p, node) :: rest else (p, n) :: putNode place node rest

def put (d : Disk) (place : Place) (node : Node) : Disk :=
  { d with nodes := putNode place node d.nodes }

/-- Take a node away; the directory it was in stays. -/
def remove (d : Disk) (place : Place) : Disk :=
  let rest := { d with nodes := d.nodes.filter (·.1 ≠ place) }
  if rest.isDirAt place.dropLast then rest else rest.put place.dropLast .directory

/-- Write a file whose directory is there. -/
def writeText (d : Disk) (path : String) (text : Text) : Except Refusal Disk := do
  let place ← d.locate path
  if d.isDirAt place then throw .isDirectory
  return d.put place (.file (String.ofList text).toUTF8)

/-- The files at or below a place, with the names that lead to them from there. -/
def filesBelow (d : Disk) (place : Place) : List (Place × ByteArray) :=
  d.nodes.filterMap fun (p, n) =>
    match n with
    | .directory => none
    | .file bytes => if place.isPrefixOf p then some (p.drop place.length, bytes) else none

end Disk

end Uplift
