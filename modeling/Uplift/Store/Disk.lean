-- Files on a disk as a store.
import Uplift.Disk
import Uplift.Script.Parse
import Uplift.Store

namespace Uplift.Disk

def load (d : Disk) (path : String) : Except ParseError Snapshot :=
  match d.readText path with
  | .error refusal => .error (.unreadable path refusal.message)
  | .ok text => Snapshot.ofSource path text

def persist (d : Disk) (path : String) (text : Text) : Disk × Option ApplyError :=
  match d.writeText path text with
  | .error refusal => (d, some (.persist path refusal.message))
  | .ok d => (d, none)

/-- The store over the files of a disk. -/
def store : Store Disk := ⟨load, persist⟩

end Uplift.Disk
