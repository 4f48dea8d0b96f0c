-- Splitting the interior of an object literal at its top-level commas.
-- Brackets, quoted text and comments are tracked, so `a: [1, 2]` stays whole.
-- A comment inside brackets belongs to the entry's text. At the top level a
-- comment on the line of an entry is attached to it, and a comment on a line
-- of its own is dropped.
import Uplift.Text.Blank

namespace Uplift.State

/-- An entry as written, with the comment that follows it on its line. -/
structure RawEntry where
  text : Text
  comment : Option Text
deriving DecidableEq

/-- What the character under the cursor is part of. -/
inductive Mode where
  | code
  /-- A slash was read, and it is open whether it starts a comment. -/
  | slash
  | quoted (quote : Char)
  /-- A backslash was read inside a quoted text. -/
  | escaped (quote : Char)
  | lineComment (read : Text)
  /-- `star` tells that the last character was a star after the opening. -/
  | blockComment (read : Text) (star : Bool)
deriving DecidableEq

/-- The state of a scan from left to right. -/
structure Splitter where
  done : List RawEntry := []
  current : Text := []
  comment : Option Text := none
  depth : Nat := 0
  mode : Mode := .code
  /-- A newline separates the cursor from the last top-level comma. -/
  lineBroken : Bool := true
deriving DecidableEq

def isQuote (c : Char) : Bool := c == '\'' || c == '"' || c == '`'

def isOpener (c : Char) : Bool := c == '{' || c == '[' || c == '('

def isCloser (c : Char) : Bool := c == '}' || c == ']' || c == ')'

/-- A comment joined to the ones before it. -/
def joinComment (old : Option Text) (text : Text) : Text :=
  match old with
  | some t => t ++ ' ' :: text
  | none => text

namespace Splitter

def push (s : Splitter) (t : Text) : Splitter := { s with current := s.current ++ t }

/-- Close the current entry. An entry without text leaves nothing behind. -/
def finishEntry (s : Splitter) : Splitter :=
  let text := Text.trim s.current
  { s with
    done := if text.isEmpty then s.done else s.done ++ [⟨text, s.comment⟩]
    current := []
    comment := none }

/-- Attach `text` to the last finished entry, if there is one. -/
def attachToLast (s : Splitter) (text : Text) : Splitter :=
  match s.done.getLast? with
  | none => s
  | some e =>
    { s with done := s.done.dropLast ++ [{ e with comment := some (joinComment e.comment text) }] }

/-- A comment has ended. -/
def endComment (s : Splitter) (read : Text) : Splitter :=
  let text := Text.trimEnd read
  let s := { s with mode := .code }
  if s.depth > 0 then s.push text
  else if !Text.isBlankText s.current then { s with comment := some (joinComment s.comment text) }
  else if !s.lineBroken then s.attachToLast text
  else s

/-- Read one character of code. -/
def readCode (s : Splitter) (c : Char) : Splitter :=
  if c = '/' then { s with mode := .slash }
  else if isQuote c then { s.push [c] with mode := .quoted c }
  else if isOpener c then { s.push [c] with depth := s.depth + 1 }
  else if isCloser c then { s.push [c] with depth := s.depth - 1 }
  else if c = ',' ∧ s.depth = 0 then { s.finishEntry with lineBroken := false }
  else if c = '\n' ∧ s.depth = 0 then { s.push [c] with lineBroken := true }
  else s.push [c]

/-- Read one character. -/
def step (s : Splitter) (c : Char) : Splitter :=
  match s.mode with
  | .code => s.readCode c
  | .slash =>
    if c = '/' then { s with mode := .lineComment ['/', '/'] }
    else if c = '*' then { s with mode := .blockComment ['/', '*'] false }
    else { s.push ['/'] with mode := .code }.readCode c
  | .quoted q =>
    if c = '\\' then { s.push [c] with mode := .escaped q }
    else if c = q then { s.push [c] with mode := .code }
    else s.push [c]
  | .escaped q => { s.push [c] with mode := .quoted q }
  | .lineComment read =>
    if c = '\n' then (s.endComment read).readCode c
    else { s with mode := .lineComment (read ++ [c]) }
  | .blockComment read star =>
    if star ∧ c = '/' then s.endComment (read ++ [c])
    else { s with mode := .blockComment (read ++ [c]) (c == '*') }

/-- What the end of the text closes: a comment runs to it, a lone slash is code. -/
def settle (s : Splitter) : Splitter :=
  match s.mode with
  | .slash => { s.push ['/'] with mode := .code }
  | .lineComment read => s.endComment read
  | .blockComment read _ => s.endComment read
  | _ => s

end Splitter

/-- The state after reading all of `t`. -/
def scanEntries (t : Text) : Splitter := t.foldl Splitter.step {}

/-- The entries of an object literal's interior. -/
def splitEntries (t : Text) : List RawEntry := (scanEntries t).settle.finishEntry.done

end Uplift.State
