-- State as an object literal: reading `{ a: 1, b }` into a property map, and
-- writing a property map back on one line, or on one line per entry when an
-- entry carries a comment.
import Uplift.State.Props
import Uplift.State.Splitter

namespace Uplift.State

/-- Cut at the first colon outside brackets and quotes. `quote` is the open quote, and
`escaped` tells that a backslash was just read inside it. -/
def cutColon? (depth : Nat) (quote : Option Char) (escaped : Bool) : Text → Option (Text × Text)
  | [] => none
  | c :: rest =>
    let next := fun d q e => (cutColon? d q e rest).map fun (a, b) => (c :: a, b)
    match quote with
    | some q =>
      if escaped then next depth quote false
      else if c = '\\' then next depth quote true
      else next depth (if c = q then none else quote) false
    | none =>
      if isQuote c then next depth (some c) false
      else if isOpener c then next (depth + 1) none false
      else if isCloser c then next (depth - 1) none false
      else if c = ':' ∧ depth = 0 then some ([], rest)
      else next depth none false

/-- Separate key and value. Entries that lack a key, or a value after their colon, are dropped. -/
def RawEntry.toEntry? (raw : RawEntry) : Option Entry :=
  match cutColon? 0 none false raw.text with
  | some (key, value) =>
    let key := Text.trim key
    let value := Text.trimTerminator value
    if value.isEmpty ∨ key.isEmpty then none else some ⟨key, value, raw.comment⟩
  | none => if raw.text.isEmpty then none else some ⟨raw.text, [], raw.comment⟩

/-- The interior of a literal; text that is not in braces is its own interior. -/
def interior (text : Text) : Text :=
  let body := Text.trimTerminator text
  ((Text.dropLead? body ['{']).bind (Text.dropLast? · '}')).getD body

/-- Read an object literal, which semicolons may follow. -/
def parseLiteral (text : Text) : Props :=
  Props.ofEntries ((splitEntries (interior text)).filterMap RawEntry.toEntry?)

/-- The text starts like an object literal. -/
def opensLiteral (text : Text) : Bool := (Text.trimStart text).head? == some '{'

namespace Entry

def render (e : Entry) : Text :=
  if e.value.isEmpty then e.key else e.key ++ ':' :: ' ' :: e.value

/-- The entry needs a line of its own. -/
def needsLine (e : Entry) : Bool := e.comment.isSome || Text.mentions e.value ['/', '/']

end Entry

/-- Entries on lines of their own, each followed by a comma unless it is the last. -/
def renderLines (lead : Text) : List Entry → Text
  | [] => []
  | e :: rest =>
    let comma := if rest.isEmpty then [] else [',']
    let comment := match e.comment with
      | some t => ' ' :: t
      | none => []
    lead ++ e.render ++ comma ++ comment ++ '\n' :: renderLines lead rest

namespace Props

/-- Write the literal for a line indented by `indent`, nesting by `unit`. -/
def formatNested (p : Props) (indent unit : Text) : Text :=
  if p.isEmpty then ['{', '}']
  else if p.entries.any Entry.needsLine then
    '{' :: '\n' :: renderLines (indent ++ unit) p.entries ++ indent ++ ['}']
  else '{' :: Text.join [',', ' '] (p.entries.map Entry.render) ++ ['}']

def formatIndented (p : Props) (indent : Text) : Text := p.formatNested indent [' ', ' ']

def format (p : Props) : Text := p.formatIndented [' ', ' ']

end Props

end Uplift.State
