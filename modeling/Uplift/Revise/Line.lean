-- Lines around an offset, and removing a member with the lines it has to
-- itself. Offsets that fit the source have an answer, others have none.
import Uplift.Edit
import Uplift.Snapshot
import Uplift.Text.Blank

namespace Uplift.Revise

def isIndent (c : Char) : Bool := c == ' ' || c == '\t'

/-- The indentation of the line that holds `offset`. -/
def lineIndent? (source : Text) (offset : Nat) : Option Text := do
  let (before, after) ← source.cut? offset
  some ((Text.lastLine before ++ after).takeWhile isIndent)

/-- The part of `rest` up to its first newline, which is included, and what follows. -/
def takeLine (rest : Text) : Text × Text := (Text.firstLine? rest).getD (rest, [])

/-- The line before a line that starts after `before` is blank or opens a block. -/
def followsBlankOrOpener (before : Text) : Bool :=
  match Text.dropLast? before '\n' with
  | none => false
  | some earlier =>
    let line := Text.trim (Text.lastLine earlier)
    line.isEmpty || line.getLast? == some '{'

/-- The blank line at the front of `rest`, newline included, if there is one. -/
def blankLine? (rest : Text) : Option Text := do
  let (line, _) ← Text.firstLine? rest
  if Text.isBlankText line then some line else none

/-- The bytes to remove with `start` up to `stop`: whole lines when nothing else stands on
them, and then the blank line after them if the line before is blank or opens a block. -/
def removalRange? (source : Text) (start stop : Nat) : Option (Nat × Nat) := do
  let (before, _) ← source.cut? start
  let (_, after) ← source.cut? stop
  let lead := Text.lastLine before
  let (trail, rest) := takeLine after
  if Text.isBlankText lead && Text.isBlankText trail then
    let above := before.take (before.length - lead.length)
    let extra := if followsBlankOrOpener above then (blankLine? rest).getD [] else []
    some (start - lead.width, stop + trail.width + extra.width)
  else some (start, stop)

/-- The edit that removes a span. -/
def removalEdit? (source : Text) (span : Span) : Option Edit := do
  let (a, b) ← removalRange? source span.start span.stop
  some (.delete a b)

end Uplift.Revise
