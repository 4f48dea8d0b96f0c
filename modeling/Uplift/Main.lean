-- The program. It reads the files that a call can look at into a disk, runs the
-- call over it, and writes back what changed.
import Uplift.Cli.Run

namespace Uplift.Cli

/-- The place that a path names by its text alone. -/
def placeOf (here : Place) (path : String) : Place :=
  let start := if path.toList.head? = some '/' then [] else here
  (Path.splitSlash path.toList).foldl (fun place step =>
    if step = [] ∨ step = ['.'] then place
    else if step = ['.', '.'] then place.dropLast
    else place ++ [String.ofList step]) start

/-- What is at a place and, if `deep`, below it. Links are not followed, and what cannot be
read is left out. -/
partial def readNodes (deep : Bool) (place : Place) : IO (List (Place × Disk.Node)) := do
  try
    let path ← IO.FS.realPath (Discover.placeText place)
    match (← path.symlinkMetadata).type with
    | .file => return [(place, .file (← IO.FS.readBinFile path))]
    | .dir =>
      let mut nodes := [(place, Disk.Node.directory)]
      if deep then
        for entry in ← path.readDir do
          if (← entry.path.symlinkMetadata).type != .symlink then
            nodes := nodes ++ (← readNodes deep (place ++ [entry.fileName]))
      return nodes
    | _ => return []
  catch _ => return []

/-- Add places to a disk. -/
def readInto (d : Disk) (deep : Bool) (places : List Place) : IO Disk :=
  places.foldlM (fun d place => do
    return { d with nodes := d.nodes ++ (← readNodes deep place) }) d

/-- The ignore files of the directories above a place. -/
def ignoreFilesAbove (place : Place) : List Place :=
  (Discover.foldersAbove place).flatMap fun f =>
    [f.place ++ [".gitignore"], f.place ++ [".git", "info", "exclude"]]

/-- The places of the configuration files. -/
def configPlaces (here : Place) (s : Surroundings) (o : Options) : List Place :=
  (o.config.toList ++ [Config.projectFile (Discover.placeText here)] ++
    (s.home.map Config.userFile).toList).map (placeOf here)

/-- Everything that a call with these options can look at. -/
def readDisk (here : Place) (s : Surroundings) (o : Options) : IO Disk := do
  let pattern := ScanPattern.expandHome s.home (o.pattern.getD defaultPattern)
  let base := placeOf here (ScanPattern.split pattern).1
  let d ← readInto { here, nodes := [(here, .directory)] } false (configPlaces here s o)
  let catalog := match configOf d s o with
    | .ok config => config.catalogPath.toList.map (placeOf here)
    | .error _ => []
  let d ← readInto d false (catalog ++ ignoreFilesAbove base)
  readInto d true [base]

/-- Write the files that differ from what was read. -/
def writeChanges (before after : Disk) : IO Unit := do
  for (place, node) in after.nodes do
    match node, before.nodeAt? place with
    | .file bytes, some (.file old) =>
      if bytes != old then IO.FS.writeBinFile (Discover.placeText place) bytes
    | _, _ => pure ()

def surroundings : IO Surroundings := do
  let home := (← IO.getEnv "HOME") <|> (← IO.getEnv "USERPROFILE")
  return {
    home
    env := {
      maxFileSize := ← IO.getEnv "RETROFIT_SCAN_MAX_FILE_SIZE"
      dryRun := ← IO.getEnv "RETROFIT_FIX_DRY_RUN"
      minConfidence := ← IO.getEnv "RETROFIT_FIX_MIN_CONFIDENCE"
      catalogPath := ← IO.getEnv "RETROFIT_CATALOG_PATH" }
    terminal := ← (← IO.getStdout).isTty }

/-- The lines for standard error. -/
def complaint (e : Ending) : List String :=
  match e.failure with
  | some (_, message) => ["retrofit: " ++ message]
  | none => if e.exitCode = 2 then ["retrofit: bad arguments, see --help"] else []

end Uplift.Cli

open Uplift in
def main (args : List String) : IO UInt32 := do
  let s ← Cli.surroundings
  let here := Cli.placeOf [] (← IO.currentDir).toString
  let d ← match Cli.read args with
    | .run options => Cli.readDisk here s options
    | _ => pure { here }
  let ending := Cli.run d s args
  IO.print ending.output
  for line in Cli.complaint ending do IO.eprintln line
  Cli.writeChanges d ending.disk
  return ending.exitCode.toUInt32
