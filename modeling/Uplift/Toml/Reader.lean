-- Reading TOML documents. A document is read line by line into statements;
-- lists and tables inside a value may nest, up to a limit.
import Uplift.Toml.Scalar

namespace Uplift.Toml

/-! ## Keys -/

def isBareChar (c : Char) : Bool := c.isAlphanum || c == '-' || c == '_'

/-- One name of a key, quoted or bare. -/
def readName (t : Text) : Option (String × Text) :=
  match t with
  | '"' :: rest => (readQuoted [] rest).map fun (s, r) => (String.ofList s, r)
  | '\'' :: rest => (readLiteral [] rest).map fun (s, r) => (String.ofList s, r)
  | t =>
    let name := t.takeWhile isBareChar
    if name.isEmpty then none else some (String.ofList name, t.dropWhile isBareChar)

/-- Names with dots between them, at most `limit`, and the gaps around them. -/
def readKey (limit : Nat) (t : Text) : Option (Key × Text) :=
  match limit with
  | 0 => none
  | limit + 1 => do
    let (name, rest) ← readName (skipGap t)
    match skipGap rest with
    | '.' :: rest => do
      let (key, rest) ← readKey limit rest
      some (⟨name :: key.parents, key.name⟩, rest)
    | rest => some (⟨[], name⟩, rest)

/-- The most names that a key can have, and the deepest that values can nest. -/
def maxDepth : Nat := 79

/-! ## Values -/

/-- Drop gaps, line ends and comments; `inComment` after the mark of a comment. What cannot
stand in a comment ends the run. -/
def skipTrivia (inComment : Bool) : Text → Text
  | [] => []
  | '\n' :: rest => skipTrivia false rest
  | '\r' :: '\n' :: rest => skipTrivia false rest
  | c :: rest =>
    if inComment then if isPlain c then skipTrivia true rest else c :: rest
    else if c = '#' then skipTrivia true rest
    else if isGap c then skipTrivia false rest
    else c :: rest

/-- The items of a list up to its closing bracket. A comma may stand after the last. -/
def readItems (readOne : Text → Option (Value × Text)) (fuel : Nat) (t : Text) :
    Option (List Value × Text) :=
  match fuel with
  | 0 => none
  | fuel + 1 =>
    match skipTrivia false t with
    | ']' :: rest => some ([], rest)
    | t => do
      let (v, rest) ← readOne t
      match skipTrivia false rest with
      | ',' :: rest => (readItems readOne fuel rest).map fun (vs, r) => (v :: vs, r)
      | ']' :: rest => some ([v], rest)
      | _ => none

/-- The pairs of a table in braces, at least one, up to its closing brace. -/
def readPairs (readOne : Text → Option (Value × Text)) (fuel : Nat) (t : Text) :
    Option (List (Key × Value) × Text) :=
  match fuel with
  | 0 => none
  | fuel + 1 => do
    let (key, rest) ← readKey maxDepth t
    let (v, rest) ← readOne (skipGap (← dropChar? '=' rest))
    match skipGap rest with
    | ',' :: rest => (readPairs readOne fuel rest).map fun (ps, r) => ((key, v) :: ps, r)
    | '}' :: rest => some ([(key, v)], rest)
    | _ => none

/-- A value, with `depth` more levels allowed inside it. -/
def readValue (depth : Nat) (t : Text) : Option (Value × Text) :=
  match t, depth with
  | '[' :: _, 0 => none
  | '[' :: rest, depth + 1 =>
    (readItems (readValue depth) (rest.length + 1) rest).map fun (vs, r) => (.list vs, r)
  | '{' :: _, 0 => none
  | '{' :: rest, depth + 1 =>
    match skipGap rest with
    | '}' :: rest => some (.table .closed [], rest)
    | _ => do
      let (pairs, rest) ← readPairs (readValue depth) (rest.length + 1) rest
      some (← closedTable pairs, rest)
  | t, _ => readScalar t

/-! ## Statements -/

/-- The end of a line: a gap, a comment, and a line end or the end of the document. -/
def readLineEnd (t : Text) : Option Text :=
  let rest := match skipGap t with
    | '#' :: rest => rest.dropWhile isPlain
    | rest => rest
  if rest.isEmpty then some [] else dropNewline? rest

/-- A statement up to the end of its line. -/
def readStatement (t : Text) : Option (Statement × Text) :=
  match t with
  | '[' :: '[' :: rest => do
    let (key, rest) ← readKey maxDepth rest
    some (.listHeader key, ← readLineEnd (← dropChar? ']' (← dropChar? ']' rest)))
  | '[' :: rest => do
    let (key, rest) ← readKey maxDepth rest
    some (.header key, ← readLineEnd (← dropChar? ']' rest))
  | t => do
    let (key, rest) ← readKey maxDepth t
    let (v, rest) ← readValue maxDepth (skipGap (← dropChar? '=' rest))
    some (.pair key v, ← readLineEnd rest)

/-- The statements of a document. Every turn reads a line, so a text has at least as many
characters as turns. -/
def readStatements (fuel : Nat) (t : Text) : Option (List Statement) :=
  match fuel with
  | 0 => none
  | fuel + 1 =>
    match skipGap t with
    | [] => some []
    | c :: rest =>
      if c = '#' ∨ c = '\n' ∨ c = '\r' then
        (readLineEnd (c :: rest)).bind (readStatements fuel)
      else do
        let (s, rest) ← readStatement (c :: rest)
        (readStatements fuel rest).map (s :: ·)

/-- A document may start with a byte order mark. -/
def dropMark : Text → Text
  | '\ufeff' :: rest => rest
  | t => t

/-- Read a document. -/
def parse? (t : Text) : Option Entries :=
  (readStatements (t.length + 1) (dropMark t)).bind build

end Uplift.Toml
