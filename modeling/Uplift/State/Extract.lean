-- The state that a method sets: the object literals passed to
-- `this.setState` by calls that are statements of its own body. Calls inside
-- callbacks or branches run later or not at all, and do not count.
import Uplift.Snapshot
import Uplift.State.Literal

namespace Uplift.State

/-- The name under which a component updates its state. -/
def setStateCallee : String := "this.setState"

/-- `call` is a statement of `body`. -/
def isStatementOf (body : Body) (call : Call) : Bool :=
  body.statements.any (·.span.start == call.span.start)

/-- The state written in the first argument of a call, if that opens a literal. -/
def literalOf? (call : Call) : Option Props := do
  let arg ← call.arguments.head?
  if opensLiteral arg then some (parseLiteral arg) else none

/-- The updates that run whenever `body` runs, in order. -/
def updates (tree : Snapshot) (body : Body) : List Props :=
  (tree.calls.filter fun c =>
    c.callee == setStateCallee && isStatementOf body c).filterMap literalOf?

/-- All state that `method` sets, later calls overriding earlier ones. -/
def extract? (tree : Snapshot) (method : Method) : Option Props := do
  let body ← method.body
  let props := (updates tree body).foldl Props.extend Props.empty
  if props.isEmpty then none else some props

end Uplift.State
