-- What a legacy lifecycle method does, told from its name and its body.
import Uplift.Lifecycle.Signals
import Uplift.Snapshot

namespace Uplift.Lifecycle

/-- The behaviour of a method body. -/
inductive Pattern where
  | empty
  | setStateOnly
  | async
  | complex
  | simpleLogging
  | simpleSideEffect
  | unsafePrefix
deriving DecidableEq

namespace Pattern

def all : List Pattern :=
  [empty, setStateOnly, async, complex, simpleLogging, simpleSideEffect, unsafePrefix]

def name : Pattern → String
  | empty => "empty"
  | setStateOnly => "setState-only"
  | async => "async"
  | complex => "complex"
  | simpleLogging => "simple-logging"
  | simpleSideEffect => "simple-side-effect"
  | unsafePrefix => "unsafe-prefix"

def ofName? (s : String) : Option Pattern := all.find? (·.name == s)

end Pattern

/-- The size in bytes, braces included, from which a body is no trivial side effect. -/
def simpleBodyLimit : Nat := 150

def classifyWillMount (text : Text) (statements : Nat) : Pattern :=
  if hasNestedStateObject text || hasInlineComment text then .complex
  else if callsSetState text && !hasOtherWork text statements then .setStateOnly
  else if hasAsyncMarker text then .async
  else if statements ≤ 2 && !callsSetState text && text.width < simpleBodyLimit then .async
  else .complex

/-- State that follows the props is never updated by itself. -/
def classifyWillReceiveProps (text : Text) (statements : Nat) : Pattern :=
  if statements ≤ 3 && logsOrBreaks text && !mentionsSetState text && !comparesProps text then
    .simpleLogging
  else .complex

def classifyWillUpdate (text : Text) (statements : Nat) : Pattern :=
  if statements ≤ 3 && !touchesDom text && !mentionsSetState text then .simpleSideEffect
  else .complex

/-- Classify a body of `statements` statements. -/
def classifyText (name : String) (text : Text) (statements : Nat) : Pattern :=
  if statements = 0 then .empty
  else if "UNSAFE_".toList.isPrefixOf name.toList then .unsafePrefix
  else if name == "componentWillMount" then classifyWillMount text statements
  else if name == "componentWillReceiveProps" then classifyWillReceiveProps text statements
  else if name == "componentWillUpdate" then classifyWillUpdate text statements
  else .complex

/-- A method without a body is as empty as one without statements. -/
def classify (name : String) (body : Option Body) : Pattern :=
  match body with
  | none => .empty
  | some b => classifyText name b.text b.statements.length

end Uplift.Lifecycle
