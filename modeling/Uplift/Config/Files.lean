-- Configuration files on a disk: one in the home directory for the user, one
-- in the root of a project.
import Uplift.Config.Layers
import Uplift.Disk

namespace Uplift

/-- What a disk has where a configuration file may be. -/
def ConfigFile.on (d : Disk) (path : String) : ConfigFile :=
  if d.hasPath path then
    match d.readText path with
    | .ok text => .present path text
    | .error _ => .unreadable path
  else .absent

namespace Config

/-- Where the user's file is. -/
def userFile (home : String) : String := Path.child (Path.child home ".retrofit") "config.toml"

/-- Where the file of a project is. -/
def projectFile (root : String) : String := Path.child root "retrofit.toml"

/-- All layers for a project. Without a home directory there is no user's file. -/
def loadFrom (d : Disk) (home : Option String) (root : String) (env : Environment)
    (overrides : Overrides) : Except ConfigError Config :=
  let user := match home with
    | none => .absent
    | some home => ConfigFile.on d (userFile home)
  load user (ConfigFile.on d (projectFile root)) env overrides

/-- One file on a disk, and nothing else. -/
def loadPath (d : Disk) (path : String) : Except ConfigError Config :=
  loadFile path (ConfigFile.on d path)

end Config

end Uplift
