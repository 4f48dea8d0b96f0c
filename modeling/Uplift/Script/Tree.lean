-- Concrete syntax trees of script files. Every token is a leaf and a node
-- spans its children, so the children of a node lie side by side inside it.
-- Only the kinds that something looks for have a name of their own.
import Uplift.Snapshot

namespace Uplift.Script

/-- What a node is. -/
inductive Kind where
  | program
  | classDecl
  | method
  | fieldDefinition
  | block
  | openingElement
  | selfClosingElement
  | tagAttribute
  | bracedExpression
  | call
  | member
  | assignment
  | augmentedAssignment
  | importStatement
  | importRequire
  | functionDecl
  | arrow
  | declarator
  | array
  | object
  | pair
  | spread
  | string
  | comment
  /-- A token that stands for itself. -/
  | token (text : String)
  | other
  /-- A stretch of the source that fits no rule. -/
  | error
  /-- What had to stand here and does not. -/
  | missing (kind : Kind)
deriving DecidableEq

/-- The part that a node plays in its parent. -/
inductive Role where
  | name
  | body
  | parameters
  | pattern
  | left
  | right
  | operator
  | callee
  | arguments
  | object
  | property
  | source
deriving DecidableEq

/-- A syntax tree. Tokens such as brackets and keywords are not `named`. -/
inductive Tree where
  | node (kind : Kind) (named : Bool) (role : Option Role) (span : Span) (children : List Tree)

namespace Tree

/-- A missing node is of the kind that is missed. -/
def kind : Tree → Kind
  | node (.missing k) _ _ _ _ => k
  | node k _ _ _ _ => k

def named : Tree → Bool
  | node _ n _ _ _ => n

def role : Tree → Option Role
  | node _ _ r _ _ => r

def span : Tree → Span
  | node _ _ _ s _ => s

def children : Tree → List Tree
  | node _ _ _ _ cs => cs

def withRole (r : Role) : Tree → Tree
  | node k n _ s cs => node k n (some r) s cs

/-- The first child that plays `r`. -/
def child? (t : Tree) (r : Role) : Option Tree := t.children.find? (·.role == some r)

def namedChildren (t : Tree) : List Tree := t.children.filter (·.named)

/-- The tree holds the bare token `text` as a child. -/
def hasToken (t : Tree) (text : String) : Bool :=
  t.children.any fun c => !c.named && c.kind == .token text

/-- The span from the start of `a` to the end of `b`. -/
def spanning (a b : Span) : Span := ⟨a.start, b.stop, a.line, a.column, b.endLine⟩

/-- A node over some children. One without children has no place of its own. -/
def enclosing (kind : Kind) (children : List Tree) : Tree :=
  match children.head?, children.getLast? with
  | some a, some b => node kind true none (spanning a.span b.span) children
  | _, _ => node kind true none Span.none children

/-- The node itself is an error, or is missing. -/
def isFault : Tree → Bool
  | node k _ _ _ _ =>
    match k with
    | .error | .missing _ => true
    | _ => false

mutual

/-- There is a fault in the tree. -/
def hasFault : Tree → Bool
  | node k n r s cs => (node k n r s cs).isFault || anyFault cs

def anyFault : List Tree → Bool
  | [] => false
  | t :: ts => hasFault t || anyFault ts

end

mutual

/-- The number of faults in a tree. Trees without any are not gone into. -/
def countFaults : Tree → Nat
  | node k n r s cs =>
    let own := if (node k n r s cs).isFault then 1 else 0
    if hasFault (node k n r s cs) then own + faultsIn cs else own

/-- The number of faults in some trees. -/
def faultsIn : List Tree → Nat
  | [] => 0
  | t :: ts => countFaults t + faultsIn ts

end

mutual

/-- What stands left of an assignment binds names: the arrays, objects and defaults in it
are patterns and no expressions. -/
def asPattern : Tree → Tree
  | node k n r s cs =>
    match k with
    | .array | .object | .pair | .spread => node .other n r s (asPatterns cs)
    | .assignment => node .other n r s (headAsPattern cs)
    | k => node k n r s cs

def asPatterns : List Tree → List Tree
  | [] => []
  | t :: ts => asPattern t :: asPatterns ts

def headAsPattern : List Tree → List Tree
  | [] => []
  | t :: ts => asPattern t :: ts

end

end Tree

end Uplift.Script
