-- Reading path patterns. Braces may nest, so the branches that are still open
-- are kept on a stack.
import Uplift.Glob.Basic

namespace Uplift.Glob

/-- What can be wrong with a pattern. -/
inductive Fault where
  | unclosedClass
  | invalidRange (low high : Char)
  | unopenedChoice
  | unclosedChoice
  | danglingEscape
deriving DecidableEq

def Fault.message : Fault → String
  | unclosedClass => "unclosed character class; missing ']'"
  | invalidRange low high => s!"invalid range; '{low}' > '{high}'"
  | unopenedChoice =>
    "unopened alternate group; missing '\x7b' (maybe escape '\x7d' with '[\x7d]'?)"
  | unclosedChoice =>
    "unclosed alternate group; missing '\x7d' (maybe escape '\x7b' with '[\x7b]'?)"
  | danglingEscape => "dangling '\\'"

/-- The message for a whole pattern. -/
def Fault.messageFor (f : Fault) (pattern : String) : String :=
  s!"error parsing glob '{pattern}': {f.message}"

/-! ## Character classes -/

/-- The ranges read so far, last first, after `c` ends the last of them. -/
def endRange (c : Char) : List (Char × Char) → Except Fault (List (Char × Char))
  | [] => .ok []
  | (low, _) :: more => if c < low then .error (.invalidRange low c) else .ok ((low, c) :: more)

/-- The ranges of a class up to its closing bracket, which does not count in `first` place. A
hyphen between two characters makes a range of them (`open_`). There may be no closing
bracket. -/
def readRanges (first open_ : Bool) (done : List (Char × Char)) :
    Text → Except Fault (Option (List (Char × Char) × Text))
  | [] => .ok none
  | c :: rest =>
    if c = ']' ∧ !first then
      .ok (some ((if open_ then ('-', '-') :: done else done).reverse, rest))
    else if c = '-' ∧ !first ∧ !open_ then readRanges false true done rest
    else if open_ then
      match endRange c done with
      | .error f => .error f
      | .ok done => readRanges false false done rest
    else readRanges false false ((c, c) :: done) rest

/-- A class after its opening bracket. -/
def readClass (t : Text) : Except Fault (Option (Token × Text)) := do
  let (negated, t) := match t with
    | '!' :: rest => (true, rest)
    | '^' :: rest => (true, rest)
    | t => (false, t)
  let found ← readRanges true false [] t
  return found.map fun (ranges, rest) => (.oneOf negated ranges, rest)

/-! ## Patterns -/

/-- An open brace: the tokens before it, last first, and its finished branches, last first. -/
structure Group where
  before : List Token
  branches : List (List Token) := []

/-- A pattern under construction. -/
structure Draft where
  /-- The tokens of the branch being read, last first. -/
  current : List Token := []
  /-- The braces that are open, innermost first. -/
  groups : List Group := []
  /-- An opening bracket without its closing bracket was seen: brackets are plain from there. -/
  plainBrackets : Bool := false

namespace Draft

def push (d : Draft) (t : Token) : Draft := { d with current := t :: d.current }

def openGroup (d : Draft) : Draft :=
  { d with current := [], groups := ⟨d.current, []⟩ :: d.groups }

/-- A comma parts the branches of a brace, and is plain elsewhere. -/
def comma (d : Draft) : Draft :=
  match d.groups with
  | [] => d.push (.char ',')
  | g :: gs =>
    { d with current := [], groups := { g with branches := d.current.reverse :: g.branches } :: gs }

def closeGroup (d : Draft) : Except Fault Draft :=
  match d.groups with
  | [] => .error .unopenedChoice
  | g :: gs =>
    .ok { d with
      current := .choice (d.current.reverse :: g.branches).reverse :: g.before
      groups := gs }

/-- The finished pattern. -/
def finish (d : Draft) : Except Fault Glob :=
  if d.groups.isEmpty then .ok ⟨d.current.reverse⟩ else .error .unclosedChoice

/-- Two stars take the place of the token before them, which is the slash they follow. Steps
that are already there stay as they are. -/
def mergeSteps (d : Draft) (steps : Token) : Draft :=
  match d.current with
  | .leadingSteps :: _ => d
  | .trailingSteps :: _ => d
  | _ :: more => { d with current := steps :: more }
  | [] => { d with current := [steps] }

/-- Two stars that stand for no steps. -/
def twoStars (d : Draft) : Draft := (d.push .many).push .many

/-- Carry out two stars after the character `prev`. Where they make up a whole step they stand
for any number of steps, and take the slash after them along. The rest, and the last character
that was read, come with the result. -/
def stars (d : Draft) (prev : Option Char) (rest : Text) : Draft × Char × Text :=
  let inGroup := !d.groups.isEmpty
  if d.current.isEmpty then
    match rest with
    | [] => (d.push .leadingSteps, '*', [])
    | '/' :: rest => (d.push .leadingSteps, '/', rest)
    | rest => (d.twoStars, '*', rest)
  else if prev = some '/' ∨ (inGroup ∧ (prev = some ',' ∨ prev = some '{')) then
    match rest with
    | [] => (d.mergeSteps .trailingSteps, '*', [])
    | '/' :: rest => (d.mergeSteps .innerSteps, '/', rest)
    | c :: more =>
      if inGroup ∧ (c = ',' ∨ c = '}') then (d.mergeSteps .trailingSteps, '*', c :: more)
      else (d.twoStars, '*', c :: more)
  else (d.twoStars, '*', rest)

end Draft

/-- Read a pattern after the character `prev`. If `lenient`, an opening bracket that is never
closed stands for itself. Every turn reads a character. -/
def readFrom (lenient : Bool) (fuel : Nat) (d : Draft) (prev : Option Char) (t : Text) :
    Except Fault Glob :=
  match fuel, t with
  | _, [] => d.finish
  | 0, _ => d.finish
  | fuel + 1, c :: rest =>
    match c with
    | '?' => readFrom lenient fuel (d.push .any) c rest
    | '*' =>
      match rest with
      | '*' :: rest =>
        let (d, last, rest) := d.stars prev rest
        readFrom lenient fuel d last rest
      | rest => readFrom lenient fuel (d.push .many) c rest
    | '{' => readFrom lenient fuel d.openGroup c rest
    | ',' => readFrom lenient fuel d.comma c rest
    | '}' => do readFrom lenient fuel (← d.closeGroup) c rest
    | '\\' =>
      match rest with
      | [] => .error .danglingEscape
      | e :: rest => readFrom lenient fuel (d.push (.char e)) e rest
    | '[' =>
      if d.plainBrackets then readFrom lenient fuel (d.push (.char c)) c rest
      else do
        match ← readClass rest with
        | some (cls, rest) => readFrom lenient fuel (d.push cls) (some ']') rest
        | none =>
          if lenient then
            readFrom lenient fuel { d.push (.char c) with plainBrackets := true } c rest
          else .error .unclosedClass
    | c => readFrom lenient fuel (d.push (.char c)) c rest

/-- Read a pattern. -/
def parse (lenient : Bool) (t : Text) : Except Fault Glob :=
  readFrom lenient t.length {} none t

end Uplift.Glob
