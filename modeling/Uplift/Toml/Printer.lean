-- Writing TOML: a line per pair, and strings in the plainest quotes that hold
-- them without an escape.
import Uplift.Toml.Scalar

namespace Uplift.Toml

/-- The ways to quote a string. A block can span several lines. -/
inductive Quoting where
  | basic
  | literal
  | basicBlock
  | literalBlock
deriving DecidableEq

namespace Quoting

def mark : Quoting → Text
  | basic => ['"']
  | literal => ['\'']
  | basicBlock => ['"', '"', '"']
  | literalBlock => ['\'', '\'', '\'']

def isBlock : Quoting → Bool
  | basicBlock | literalBlock => true
  | _ => false

/-- The length of the longest run of `c` in a text that follows `run` such characters. -/
def longestRun (c : Char) (run : Nat) : Text → Nat
  | [] => run
  | d :: t => if d = c then longestRun c (run + 1) t else max run (longestRun c 0 t)

/-- The character has no plain form in a string, not even in a block. -/
def needsEscape (c : Char) : Bool := !isPlain c && c != '\n'

/-- The plainest quoting for a text: double quotes, else single ones, else a block of either
kind, and double quotes with escapes if nothing else will do. -/
def of (t : Text) : Quoting :=
  let codes := t.any needsEscape
  let backslash := t.contains '\\'
  let newline := t.contains '\n'
  let singles := longestRun '\'' 0 t
  let doubles := longestRun '"' 0 t
  if !codes && !backslash && !newline && doubles == 0 then basic
  else if !codes && !newline && singles == 0 then literal
  else if !codes && !backslash && doubles ≤ 2 then basicBlock
  else if !codes && singles ≤ 2 then literalBlock
  else if newline then basicBlock
  else basic

end Quoting

def hexChar (n : Nat) : Char := if n < 10 then Char.ofNat (48 + n) else Char.ofNat (55 + n)

/-- Two hexadecimal digits. -/
def hexPair (n : Nat) : Text := [hexChar (n / 16), hexChar (n % 16)]

/-- A character between double quotes; a newline stands for itself in a block. -/
def escapeChar (block : Bool) (c : Char) : Text :=
  match c with
  | '\t' => ['\\', 't']
  | '\n' => if block then ['\n'] else ['\\', 'n']
  | '\r' => ['\\', 'r']
  | '\\' => ['\\', '\\']
  | c =>
    if c.toNat = 8 then ['\\', 'b']
    else if c.toNat = 12 then ['\\', 'f']
    else if isPlain c then [c]
    else ['\\', 'u', '0', '0'] ++ hexPair c.toNat

/-- A text between double quotes, after `quotes` unescaped quotes. A block holds two in a row,
so the third is escaped. -/
def escapeFrom (block : Bool) (quotes : Nat) : Text → Text
  | [] => []
  | c :: t =>
    if c = '"' then
      if block && quotes < 2 then '"' :: escapeFrom block (quotes + 1) t
      else '\\' :: '"' :: escapeFrom block 0 t
    else escapeChar block c ++ escapeFrom block 0 t

/-- A string in its quotes. A block that spans lines starts on a line of its own. -/
def printText (s : String) : Text :=
  let t := s.toList
  let q := Quoting.of t
  let start := if q.isBlock && t.contains '\n' then ['\n'] else []
  let body := match q with
    | .basic => escapeFrom false 0 t
    | .basicBlock => escapeFrom true 0 t
    | .literal | .literalBlock => t
  q.mark ++ start ++ body ++ q.mark

/-- A list of strings: on one line up to one item, else a line per item. -/
def printTexts : List String → Text
  | [] => ['[', ']']
  | [s] => '[' :: printText s ++ [']']
  | ss => '[' :: ss.flatMap (fun s => "\n    ".toList ++ printText s ++ [',']) ++ ['\n', ']']

def printNat (n : Nat) : Text := (toString n).toList

def printBool (b : Bool) : Text := (if b then "true" else "false").toList

/-- A line `name = value`; no line without a value. -/
def printPair (name : String) : Option Text → Text
  | none => []
  | some value => name.toList ++ " = ".toList ++ value ++ ['\n']

/-- The line that starts a table. -/
def printHeader (name : String) : Text := '[' :: name.toList ++ [']', '\n']

end Uplift.Toml
