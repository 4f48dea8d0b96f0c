-- Files that live in memory. A file can come with the snapshot of its text,
-- which stands in for parsing as long as the text is unchanged.
import Uplift.Script.Parse
import Uplift.Store

namespace Uplift

structure MemoryFile where
  path : String
  text : Text
  snapshot : Option Snapshot := none

/-- Files in memory; locked ones cannot be written. -/
structure Memory where
  files : List MemoryFile := []
  locked : List String := []

namespace Memory

def find? (m : Memory) (path : String) : Option MemoryFile :=
  m.files.find? fun f => Path.same f.path path

/-- Give a file a new text, or make it. -/
def putFile (file : MemoryFile) : List MemoryFile → List MemoryFile
  | [] => [file]
  | f :: rest =>
    if Path.same f.path file.path then { f with text := file.text } :: rest
    else f :: putFile file rest

def write (m : Memory) (path : String) (text : Text) : Memory :=
  { m with files := putFile { path, text } m.files }

def delete (m : Memory) (path : String) : Memory :=
  { m with files := m.files.filter fun f => !Path.same f.path path }

def lock (m : Memory) (path : String) : Memory := { m with locked := m.locked ++ [path] }

/-- All paths in order. -/
def paths (m : Memory) : List String :=
  (m.files.map (·.path)).mergeSort fun a b => !Path.before b a

def load (m : Memory) (path : String) : Except ParseError Snapshot :=
  match m.find? path with
  | none => .error (.unreadable path "entity not found")
  | some f =>
    match f.snapshot.filter (·.source = f.text) with
    | some tree => .ok tree
    | none => Snapshot.ofSource path f.text

def persist (m : Memory) (path : String) (text : Text) : Memory × Option ApplyError :=
  if m.locked.any (Path.same path) then (m, some (.persist path "permission denied"))
  else (m.write path text, none)

/-- The store over files in memory. -/
def store : Store Memory := ⟨load, persist⟩

end Memory

end Uplift
