-- Layered configuration: the user's file, the project's file, the environment
-- and the command line, each laid over the ones before.
import Uplift.Config.Toml

namespace Uplift

/-- What is found where a configuration file may be. -/
inductive ConfigFile where
  | absent
  | unreadable (path : String)
  | present (path : String) (text : Text)

/-- The environment variables that carry settings. -/
structure Environment where
  maxFileSize : Option String := none
  dryRun : Option String := none
  minConfidence : Option String := none
  catalogPath : Option String := none

/-- The settings that the command line can make. -/
structure Overrides where
  dryRun : Option Bool := none
  maxFileSize : Option Nat := none
  catalogPath : Option String := none

namespace ConfigFile

/-- The settings in a file. A missing file has none, and one that cannot be read fails. -/
def settings : ConfigFile → Except ConfigError Config
  | absent => .ok {}
  | unreadable path => .error (.fileNotFound path)
  | present path text => Config.decode path text

/-- The settings in a file that does not count unless it can be read. -/
def settingsIfReadable : ConfigFile → Except ConfigError Config
  | unreadable _ => .ok {}
  | file => file.settings

end ConfigFile

/-- A count below 2 ^ 64, in decimal digits with an optional plus sign. -/
def readCount? (s : String) : Option Nat :=
  let digits := match s.toList with
    | '+' :: rest => rest
    | t => t
  if digits.isEmpty ∨ !digits.all Char.isDigit then none
  else
    let n := digits.foldl (fun n c => n * 10 + (c.toNat - '0'.toNat)) 0
    if n < UInt64.size then some n else none

def readFlag? : String → Option Bool
  | "true" => some true
  | "false" => some false
  | _ => none

/-- What the environment sets. A count or flag that cannot be read sets nothing. -/
def Environment.settings (e : Environment) : Config where
  scan := { maxFileSize := e.maxFileSize.bind readCount? }
  fix := { dryRun := e.dryRun.bind readFlag?, minConfidence := e.minConfidence }
  catalogPath := e.catalogPath

def Overrides.settings (o : Overrides) : Config where
  scan := { maxFileSize := o.maxFileSize }
  fix := { dryRun := o.dryRun }
  catalogPath := o.catalogPath

namespace Config

/-- Lay the layers over each other, from the least to the most important, and check the
result. The user's file is looked at first. -/
def load (user project : ConfigFile) (env : Environment) (overrides : Overrides) :
    Except ConfigError Config := do
  let user ← user.settingsIfReadable
  let project ← project.settings
  checked ([user, project, env.settings, overrides.settings].foldl overlay {})

/-- Read one file and nothing else. A missing file fails like an unreadable one. -/
def loadFile (path : String) (file : ConfigFile) : Except ConfigError Config :=
  match file with
  | .absent => .error (.fileNotFound path)
  | file => do checked (({} : Config).overlay (← file.settings))

end Config

end Uplift
