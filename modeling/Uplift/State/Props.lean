-- The initial state of a component: an ordered map from property to value,
-- both kept as they were written. Writing a key again keeps its place.
import Uplift.Text.Basic

namespace Uplift.State

/-- One `key: value` entry. Shorthand and spread entries keep their whole text in `key`
and have an empty value. -/
structure Entry where
  key : Text
  value : Text
  comment : Option Text := none
deriving DecidableEq

/-- Put `e` in the place of the entry with its key, or at the end. -/
def putEntry (e : Entry) : List Entry → List Entry
  | [] => [e]
  | x :: rest => if x.key = e.key then e :: rest else x :: putEntry e rest

/-- An ordered property map. -/
structure Props where
  entries : List Entry := []
deriving DecidableEq

namespace Props

def empty : Props := {}

def isEmpty (p : Props) : Bool := p.entries.isEmpty

def size (p : Props) : Nat := p.entries.length

def keys (p : Props) : List Text := p.entries.map (·.key)

def find? (p : Props) (key : Text) : Option Entry := p.entries.find? (·.key == key)

def get? (p : Props) (key : Text) : Option Text := (p.find? key).map (·.value)

def insertEntry (p : Props) (e : Entry) : Props := ⟨putEntry e p.entries⟩

def insert (p : Props) (key value : Text) : Props := p.insertEntry { key, value }

def ofEntries (es : List Entry) : Props := es.foldl insertEntry empty

/-- Overlay `other`: its values win, first places are kept. -/
def extend (p other : Props) : Props := other.entries.foldl insertEntry p

/-- Combine new state with an initializer that is already there, whose values win. -/
def mergedWithExisting (fresh existing : Props) : Props := fresh.extend existing

end Props

end Uplift.State
