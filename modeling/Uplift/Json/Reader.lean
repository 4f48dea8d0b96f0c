-- Reading JSON text. Of fields with one name the last counts, nesting is
-- limited, and a number must fit a double.
import Uplift.Json.Value

namespace Uplift.Json

def isSpace (c : Char) : Bool := c == ' ' || c == '\n' || c == '\t' || c == '\r'

def skipSpace (t : Text) : Text := t.dropWhile isSpace

def hexDigit? (c : Char) : Option Nat :=
  if c.isDigit then some (c.toNat - '0'.toNat)
  else if 'a' ≤ c ∧ c ≤ 'f' then some (c.toNat - 'a'.toNat + 10)
  else if 'A' ≤ c ∧ c ≤ 'F' then some (c.toNat - 'A'.toNat + 10)
  else none

def hex4? (a b c d : Char) : Option Nat := do
  some ((← hexDigit? a) * 4096 + (← hexDigit? b) * 256 + (← hexDigit? c) * 16 + (← hexDigit? d))

def escaped? : Char → Option Char
  | '"' => some '"'
  | '\\' => some '\\'
  | '/' => some '/'
  | 'b' => some '\x08'
  | 'f' => some '\x0c'
  | 'n' => some '\n'
  | 'r' => some '\r'
  | 't' => some '\t'
  | _ => none

/-- A code point above the first plane from its two halves. -/
def joinSurrogates? (high low : Nat) : Option Char :=
  if 0xdc00 ≤ low ∧ low < 0xe000 then
    some (Char.ofNat (0x10000 + (high - 0xd800) * 1024 + (low - 0xdc00)))
  else none

/-- The rest of a string after its opening quote, and what follows its closing quote. The
characters read so far are `done`, last first. -/
def readString (done : Text) : Text → Option (Text × Text)
  | [] => none
  | '"' :: rest => some (done.reverse, rest)
  | '\\' :: 'u' :: a :: b :: c :: d :: rest =>
    match hex4? a b c d with
    | none => none
    | some n =>
      if 0xd800 ≤ n ∧ n < 0xdc00 then
        match rest with
        | '\\' :: 'u' :: e :: f :: g :: h :: rest =>
          match (hex4? e f g h).bind (joinSurrogates? n) with
          | none => none
          | some ch => readString (ch :: done) rest
        | _ => none
      else if 0xdc00 ≤ n ∧ n < 0xe000 then none
      else readString (Char.ofNat n :: done) rest
  | '\\' :: c :: rest =>
    match escaped? c with
    | none => none
    | some ch => readString (ch :: done) rest
  | c :: rest => if c.toNat < 0x20 ∨ c = '\\' then none else readString (c :: done) rest

def digitsValue (ds : Text) : Nat := ds.foldl (fun n c => n * 10 + (c.toNat - '0'.toNat)) 0

/-- Digits, at least one. -/
def readDigits (t : Text) : Option (Text × Text) :=
  let ds := t.takeWhile Char.isDigit
  if ds.isEmpty then none else some (ds, t.dropWhile Char.isDigit)

/-- The whole part of a number: no zero stands before another digit. -/
def readWhole (t : Text) : Option (Text × Text) := do
  let (ds, rest) ← readDigits t
  if ds.length > 1 ∧ ds.head? = some '0' then none else some (ds, rest)

def readFraction (t : Text) : Option (Text × Text) :=
  match t with
  | '.' :: rest => readDigits rest
  | _ => some ([], t)

def readExponent (t : Text) : Option (Int × Text) :=
  match t with
  | c :: rest =>
    if c = 'e' ∨ c = 'E' then
      match rest with
      | '-' :: rest => (readDigits rest).map fun (ds, r) => (-(digitsValue ds : Int), r)
      | '+' :: rest => (readDigits rest).map fun (ds, r) => ((digitsValue ds : Int), r)
      | rest => (readDigits rest).map fun (ds, r) => ((digitsValue ds : Int), r)
    else some (0, t)
  | [] => some (0, t)

def readNumber (t : Text) : Option (Decimal × Text) := do
  let (negative, t) := match t with
    | '-' :: rest => (true, rest)
    | _ => (false, t)
  let (whole, t) ← readWhole t
  let (frac, t) ← readFraction t
  let (exp, t) ← readExponent t
  let d : Decimal := ⟨negative, digitsValue (whole ++ frac), exp - frac.length⟩
  if d.isFinite then some (d, t) else none

/-- How deep arrays and objects may nest. -/
def maxDepth : Nat := 127

mutual

/-- One value, with `depth` more levels allowed inside it. Each step reads a character, so a
text is never longer than the steps `fuel` that it needs. -/
def readValue (fuel depth : Nat) (t : Text) : Option (Json × Text) :=
  match fuel with
  | 0 => none
  | fuel + 1 =>
    match skipSpace t with
    | 'n' :: 'u' :: 'l' :: 'l' :: rest => some (.null, rest)
    | 't' :: 'r' :: 'u' :: 'e' :: rest => some (.bool true, rest)
    | 'f' :: 'a' :: 'l' :: 's' :: 'e' :: rest => some (.bool false, rest)
    | '"' :: rest => (readString [] rest).map fun (s, r) => (.str (String.ofList s), r)
    | '[' :: rest =>
      match depth with
      | 0 => none
      | depth + 1 =>
        match skipSpace rest with
        | ']' :: rest => some (.arr [], rest)
        | rest => (readItems fuel depth [] rest).map fun (xs, r) => (.arr xs, r)
    | '{' :: rest =>
      match depth with
      | 0 => none
      | depth + 1 =>
        match skipSpace rest with
        | '}' :: rest => some (.obj [], rest)
        | rest => (readFields fuel depth [] rest).map fun (fs, r) => (.obj fs, r)
    | t => (readNumber t).map fun (n, r) => (.num n, r)

/-- The items of an array up to its closing bracket. -/
def readItems (fuel depth : Nat) (done : List Json) (t : Text) : Option (List Json × Text) :=
  match fuel with
  | 0 => none
  | fuel + 1 =>
    match readValue fuel depth t with
    | none => none
    | some (v, rest) =>
      match skipSpace rest with
      | ',' :: rest => readItems fuel depth (v :: done) rest
      | ']' :: rest => some ((v :: done).reverse, rest)
      | _ => none

/-- The fields of an object up to its closing brace. -/
def readFields (fuel depth : Nat) (done : List (String × Json)) (t : Text) :
    Option (List (String × Json) × Text) :=
  match fuel with
  | 0 => none
  | fuel + 1 =>
    match skipSpace t with
    | '"' :: rest =>
      match readString [] rest with
      | none => none
      | some (name, rest) =>
        match skipSpace rest with
        | ':' :: rest =>
          match readValue fuel depth rest with
          | none => none
          | some (v, rest) =>
            let done := putField (String.ofList name) v done
            match skipSpace rest with
            | ',' :: rest => readFields fuel depth done rest
            | '}' :: rest => some (done, rest)
            | _ => none
        | _ => none
    | _ => none

end

/-- Read a whole text as one value. -/
def parse? (t : Text) : Option Json := do
  let (v, rest) ← readValue (2 * t.length + 2) maxDepth t
  if (skipSpace rest).isEmpty then some v else none

end Uplift.Json
