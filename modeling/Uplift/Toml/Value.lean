-- The data of a TOML document. A document is a list of statements, and the
-- statements build a tree of tables. A table may be written in several pieces
-- only as far as the pieces do not define the same thing twice, so every table
-- remembers how it came to be.
import Uplift.Text.Basic

namespace Uplift.Toml

/-- How a table came to be. -/
inductive Origin where
  /-- A header names it, or it is the document itself. -/
  | declared
  /-- It lies on the way to a table that a header names. -/
  | implied
  /-- It lies on the way to a key with dots. -/
  | dotted
  /-- It is written in braces, in one piece. -/
  | closed
deriving DecidableEq

/-- A value. Of fractions and dates only the kind is kept. -/
inductive Value where
  | str (s : String)
  | int (n : Int)
  | bool (b : Bool)
  | fraction
  | date
  | list (items : List Value)
  | table (origin : Origin) (entries : List (String × Value))
  | tables (items : List (List (String × Value)))

/-- The entries of a table. -/
abbrev Entries := List (String × Value)

namespace Entries

def get? (es : Entries) (name : String) : Option Value := List.lookup name es

/-- Replace the value under a name, or add it at the end. -/
def put (name : String) (value : Value) : Entries → Entries
  | [] => [(name, value)]
  | (n, v) :: rest =>
    if n = name then (n, value) :: rest else (n, v) :: put name value rest

end Entries

/-- A key: a name, and the tables that lead to it. -/
structure Key where
  parents : List String
  name : String
deriving DecidableEq

/-- One statement of a document. -/
inductive Statement where
  /-- `[key]`: what follows belongs to this table. -/
  | header (key : Key)
  /-- `[[key]]`: what follows belongs to one more table of this list. -/
  | listHeader (key : Key)
  /-- `key = value`. -/
  | pair (key : Key) (value : Value)

/-! ## Building the tree -/

/-- Change the table that `path` leads to, and make the tables on the way. With `dots` the
path is part of a key, which may not reach into a table that has a header. -/
def update (dots : Bool) (change : Origin → Entries → Option Entries) :
    List String → Origin → Entries → Option Entries
  | [], origin, es => change origin es
  | name :: path, _, es =>
    match es.get? name with
    | none =>
      let made := if dots then Origin.dotted else Origin.implied
      (update dots change path made []).map fun inner => es.put name (.table made inner)
    | some (.table origin inner) =>
      if origin = .closed ∨ (dots ∧ origin = .declared) then none
      else (update dots change path origin inner).map fun inner =>
        es.put name (.table origin inner)
    | some (.tables items) =>
      match items.getLast? with
      | none => none
      | some last => (update dots change path .declared last).map fun last =>
          es.put name (.tables (items.dropLast ++ [last]))
    | some _ => none

/-- Start the table `name`. It must be new, or so far only implied. -/
def declare (name : String) (_ : Origin) (es : Entries) : Option Entries :=
  match es.get? name with
  | none => some (es.put name (.table .declared []))
  | some (.table .implied inner) => some (es.put name (.table .declared inner))
  | some _ => none

/-- Start one more table of the list `name`. -/
def declareNext (name : String) (_ : Origin) (es : Entries) : Option Entries :=
  match es.get? name with
  | none => some (es.put name (.tables [[]]))
  | some (.tables items) => some (es.put name (.tables (items ++ [[]])))
  | some _ => none

/-- Add a new name. A key with dots ends in a table made by such keys, a plain one does not. -/
def insert (key : Key) (value : Value) (origin : Origin) (es : Entries) : Option Entries :=
  if (origin = .dotted ↔ key.parents = []) ∨ (es.get? key.name).isSome then none
  else some (es.put key.name value)

/-- Add a pair below a table. -/
def insertPair (key : Key) (value : Value) (origin : Origin) (es : Entries) : Option Entries :=
  update true (insert key value) key.parents origin es

/-- A table under construction: what has been built, and the header in force. -/
structure Draft where
  here : List String := []
  root : Entries := []

/-- Carry out one statement. -/
def Draft.step (d : Draft) : Statement → Option Draft
  | .header k => do
    let root ← update false (declare k.name) k.parents .declared d.root
    some ⟨k.parents ++ [k.name], root⟩
  | .listHeader k => do
    let root ← update false (declareNext k.name) k.parents .declared d.root
    some ⟨k.parents ++ [k.name], root⟩
  | .pair k v => do
    let root ← update false (insertPair k v) d.here .declared d.root
    some { d with root }

/-- The table that statements build, unless they contradict each other. -/
def build (statements : List Statement) : Option Entries :=
  (statements.foldlM Draft.step {}).map (·.root)

/-- The table written in braces with these pairs. -/
def closedTable (pairs : List (Key × Value)) : Option Value :=
  (pairs.foldlM (fun es (k, v) => insertPair k v .declared es) []).map (.table .closed)

end Uplift.Toml
