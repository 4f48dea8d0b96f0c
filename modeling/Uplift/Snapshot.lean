-- The syntax snapshot of one file: plain lists of the constructs that the
-- scanners and the fixes look at, each with its place in the source.
import Uplift.Language
import Uplift.Text.Basic

namespace Uplift

/-- A place in a source: bytes `start` up to `stop`, and where they lie on the lines. -/
structure Span where
  start : Nat
  stop : Nat
  line : Nat
  column : Nat
  endLine : Nat
deriving DecidableEq, Inhabited

namespace Span

/-- The span that nothing occupies. -/
def none : Span := ⟨0, 0, 0, 0, 0⟩

def isEmpty (s : Span) : Bool := s.start == s.stop

/-- The number of bytes covered. A span that ends before it starts has no size. -/
def size? (s : Span) : Option Nat := if s.start ≤ s.stop then some (s.stop - s.start) else .none

/-- `inner` lies within `outer`. -/
def contains (outer inner : Span) : Bool := outer.start ≤ inner.start && inner.stop ≤ outer.stop

end Span

structure Param where
  name : String
  span : Span
deriving DecidableEq

structure Statement where
  text : Text
  span : Span
deriving DecidableEq

/-- A brace-delimited method body; `text` includes the braces. -/
structure Body where
  text : Text
  span : Span
  statements : List Statement
deriving DecidableEq

structure Method where
  name : String
  isStatic : Bool
  isAsync : Bool
  params : List Param
  body : Option Body
  nameSpan : Span
  text : Text
  span : Span
deriving DecidableEq

structure Property where
  name : String
  isStatic : Bool
  span : Span
deriving DecidableEq

structure ClassDecl where
  name : Option String
  members : List Method
  properties : List Property
  bodySpan : Span
  span : Span
deriving DecidableEq

/-- The value given to an attribute of an element. -/
inductive AttributeValue where
  | string (s : String)
  | expression (s : String)
  | element (s : String)
deriving DecidableEq

structure Attribute where
  name : String
  value : Option AttributeValue
  span : Span
deriving DecidableEq

structure Element where
  name : String
  selfClosing : Bool
  attributes : List Attribute
  span : Span
deriving DecidableEq

structure Call where
  callee : String
  arguments : List Text
  span : Span
deriving DecidableEq

structure Member where
  object : String
  property : String
  span : Span
deriving DecidableEq

structure Assignment where
  left : String
  operator : String
  right : String
  span : Span
deriving DecidableEq

structure Import where
  specifier : String
  span : Span
deriving DecidableEq

inductive FunctionKind where
  | declaration
  | arrow
deriving DecidableEq

structure Function where
  name : Option String
  kind : FunctionKind
  span : Span
deriving DecidableEq

/-- Everything known about one file's syntax. -/
structure Snapshot where
  path : String
  language : Language
  source : Text
  classes : List ClassDecl
  elements : List Element
  calls : List Call
  members : List Member
  assignments : List Assignment
  imports : List Import
  functions : List Function
  errorCount : Nat
deriving DecidableEq

namespace Body

/-- The text between the braces; a brace that is missing is not looked for further. -/
def innerText (b : Body) : Text :=
  let inner := (Text.dropLead? b.text ['{']).getD b.text
  (Text.dropLast? inner '}').getD inner

end Body

namespace Method

def isConstructor (m : Method) : Bool := m.name == "constructor"

def line (m : Method) : Nat := m.span.line

def statements (m : Method) : List Statement :=
  match m.body with
  | some b => b.statements
  | none => []

end Method

namespace ClassDecl

/-- The methods that are not constructors. -/
def methods (c : ClassDecl) : List Method := c.members.filter (!·.isConstructor)

def method? (c : ClassDecl) (name : String) : Option Method := c.methods.find? (·.name == name)

/-- The constructor that has a body. -/
def constructor? (c : ClassDecl) : Option Method :=
  c.members.find? fun m => m.isConstructor && m.body.isSome

def constructorBody? (c : ClassDecl) : Option Body := do (← c.constructor?).body

def staticProperty? (c : ClassDecl) (name : String) : Option Property :=
  c.properties.find? fun p => p.isStatic && p.name == name

end ClassDecl

namespace Element

def attribute? (e : Element) (name : String) : Option Attribute :=
  e.attributes.find? (·.name == name)

end Element

/-- Any construct of a snapshot. -/
inductive Node where
  | ofClass (c : ClassDecl)
  | ofElement (e : Element)
  | ofCall (c : Call)
  | ofMember (m : Member)
  | ofAssignment (a : Assignment)
  | ofImport (i : Import)
  | ofFunction (f : Function)

namespace Node

def span : Node → Span
  | ofClass n => n.span
  | ofElement n => n.span
  | ofCall n => n.span
  | ofMember n => n.span
  | ofAssignment n => n.span
  | ofImport n => n.span
  | ofFunction n => n.span

end Node

namespace Snapshot

/-- A file with no constructs. -/
def blank (path : String) (language : Language) (source : Text) : Snapshot :=
  ⟨path, language, source, [], [], [], [], [], [], [], 0⟩

def hasErrors (t : Snapshot) : Bool := t.errorCount > 0

/-- The source under a span, or nothing when the span does not fit the source. -/
def textAt (t : Snapshot) (s : Span) : Text := (t.source.slice? s.start s.stop).getD []

/-- All constructs by where they start; among those that start together, by kind. -/
def nodes (t : Snapshot) : List Node :=
  (t.classes.map Node.ofClass ++ t.elements.map Node.ofElement ++ t.calls.map Node.ofCall ++
      t.members.map Node.ofMember ++ t.assignments.map Node.ofAssignment ++
      t.imports.map Node.ofImport ++ t.functions.map Node.ofFunction).mergeSort
    fun a b => a.span.start ≤ b.span.start

def classNamed? (t : Snapshot) (name : String) : Option ClassDecl :=
  t.classes.find? (·.name == some name)

/-- The first method of that name on that line, with its class. -/
def findMethod? (t : Snapshot) (name : String) (line : Nat) : Option (ClassDecl × Method) :=
  t.classes.findSome? fun c =>
    (c.methods.find? fun m => m.name == name && m.line == line).map (c, ·)

end Snapshot

end Uplift
