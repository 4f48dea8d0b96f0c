-- Questions about the text of a method body. Each predicate answers one of
-- them, so a classification reads as a combination of named signs.
import Uplift.Text.Blank
import Uplift.Text.Word

namespace Uplift.Lifecycle

/-- Some place of `t` satisfies `p`, which sees the text from there on. -/
def anywhere (p : Text → Bool) : Text → Bool
  | [] => p []
  | c :: t => p (c :: t) || anywhere p t

/-- The text mentions one of `parts`. -/
def mentionsAny (t : Text) (parts : List String) : Bool :=
  parts.any fun p => Text.mentions t p.toList

def callsSetState (body : Text) : Bool := Text.mentions body "this.setState".toList

/-- Any mention, also of an aliased or destructured call. -/
def mentionsSetState (body : Text) : Bool := Text.mentions body "setState".toList

/-- At the front stands `{ key: {`. -/
def opensNested (t : Text) : Bool :=
  match t with
  | '{' :: t =>
    let key := Text.trimStart t
    match Text.trimStart (key.dropWhile Text.isWord) with
    | ':' :: t => (key.head?.map Text.isWord) == some true && (Text.trimStart t).head? == some '{'
    | _ => false
  | _ => false

/-- A state update together with an object literal inside a literal. -/
def hasNestedStateObject (body : Text) : Bool := callsSetState body && anywhere opensNested body

/-- At the front stands a line comment that a newline ends. -/
def opensEndedComment (t : Text) : Bool :=
  match t with
  | '/' :: '/' :: t => t.contains '\n'
  | _ => false

/-- A state update together with a line comment. -/
def hasInlineComment (body : Text) : Bool := callsSetState body && anywhere opensEndedComment body

def hasAsyncMarker (body : Text) : Bool :=
  mentionsAny body ["async", "fetch", "axios", ".then", "Promise"]

/-- Printing, returns, branches, loops, or more than two statements. -/
def hasOtherWork (body : Text) (statements : Nat) : Bool :=
  mentionsAny body ["console.", "return", "if (", "for "] || statements > 2

def logsOrBreaks (body : Text) : Bool := mentionsAny body ["console.log", "debugger"]

/-- At the front stands an equality or inequality operator, loose or strict; the result is
what follows its first two characters. -/
def dropComparison? : Text → Option Text
  | '=' :: '=' :: t => some t
  | '!' :: '=' :: t => some t
  | _ => none

/-- At the front stands `this.props.` and a word; the result is what follows the word. -/
def dropProp? (t : Text) : Option Text := do
  let rest ← Text.dropLead? t "this.props.".toList
  if (rest.head?.map Text.isWord) == some true then some (rest.dropWhile Text.isWord) else none

/-- At the front stands a comparison with a prop on one of its sides. -/
def opensPropComparison (t : Text) : Bool :=
  ((dropProp? t).bind fun r => dropComparison? (Text.trimStart r)).isSome ||
    ((dropComparison? t).bind fun r => dropProp? (Text.trimStart r)).isSome

def comparesProps (body : Text) : Bool := anywhere opensPropComparison body

/-- Touches the document, the window or string refs. -/
def touchesDom (body : Text) : Bool := mentionsAny body ["document", "window.", "refs"]

end Uplift.Lifecycle
